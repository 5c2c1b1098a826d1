import TwowCore.Battlegrounds.QueueInvitations

/-!
# The invited count

`GetInvitedCount` counts the players of a side who are in the battleground or queued with a group
that is invited to it, as long as `InviteGroupToBG` reaches every player of the groups it invites:
`RemovePlayer` counts down for a player the invitation has not reached as well.
-/

namespace TwowCore.Battlegrounds

namespace BattleGroundState

variable {s s' : BattleGroundState} {guid p : ObjectGuid} {instanceId : UInt32} {team : Team}

/-- The side a player is in a battleground for. -/
def inside (s : BattleGroundState) (instanceId : UInt32) (guid : ObjectGuid) : Option Team :=
  (s.battleGrounds instanceId).bind fun bg => Lib.entryOf guid bg.players

/-- The players of a side who are in a battleground or hold an invitation to it. -/
def accounted (s : BattleGroundState) (instanceId : UInt32) (team : Team) : Finset ObjectGuid :=
  (((s.battleGrounds instanceId).elim [] fun bg => bg.players.map Prod.fst) ++
    s.queue.queuedPlayers.map Prod.fst).toFinset.filter fun guid =>
      s.inside instanceId guid = some team ∨ s.queue.invitedTo guid = some (instanceId, team)

/-- `GetInvitedCount` is the number of these players, and there are at most `MaxPlayersPerTeam`. -/
def Tallied (s : BattleGroundState) : Prop :=
  ∀ instanceId bg, s.battleGrounds instanceId = some bg → ∀ team,
    (bg.invited team).toNat = (s.accounted instanceId team).card ∧
      (s.accounted instanceId team).card ≤ bg.maxPlayersPerTeam.toNat

/-- The invariant of a run. -/
structure Sound (s : BattleGroundState) : Prop where
  queue : s.queue.Sound
  slots : ∀ p i, s.queueSlot p = some i → i ≠ 0 → s.queue.Queued p →
    ∃ team, s.queue.invitedTo p = some (i, team)
  inside : ∀ instanceId p team, s.inside instanceId p = some team →
    s.bgInstanceID p = instanceId ∧ (s.queueSlot p).isSome ∧ ¬s.queue.Queued p
  tallied : s.Tallied
  absent : s.battleGrounds 0 = none

@[simp] theorem mem_accounted : p ∈ s.accounted instanceId team ↔
    s.inside instanceId p = some team ∨ s.queue.invitedTo p = some (instanceId, team) := by
  unfold accounted
  rw [Finset.mem_filter, List.mem_toFinset, List.mem_append, and_iff_right_iff_imp]
  rintro (hin | hinvited)
  · obtain ⟨bg, hbg, hentry⟩ := Option.bind_eq_some_iff.mp hin
    rw [hbg]
    exact Or.inl (List.mem_map_of_mem (f := Prod.fst) (Lib.mem_of_entryOf hentry))
  · obtain ⟨info, hinfo⟩ :=
      Option.isSome_iff_exists.mp (BattleGroundQueue.queued_of_invitedTo hinvited)
    exact Or.inr (List.mem_map_of_mem (f := Prod.fst) (Lib.mem_of_entryOf hinfo))

/-- Who is in a battleground is not queued, and so not invited. -/
theorem Sound.not_inside (h : s.Sound) (hqueued : s.queue.Queued p) (instanceId : UInt32) :
    s.inside instanceId p = none := by
  cases hin : s.inside instanceId p with
  | none => rfl
  | some team => exact absurd hqueued (h.inside instanceId p team hin).2.2

theorem inside_modifyBG (f : BattleGround → BattleGround) (id : UInt32) (p : ObjectGuid) :
    (s.modifyBG instanceId f).inside id p =
      if id = instanceId then
        (s.battleGrounds instanceId).bind fun bg => Lib.entryOf p (f bg).players
      else s.inside id p := by
  unfold inside
  show (Function.update s.battleGrounds instanceId _ id).bind _ = _
  split_ifs with hid
  · rw [hid, Function.update_self, Option.bind_map]
    rfl
  · rw [Function.update_of_ne hid]

theorem modifyBG_absent (h : s.battleGrounds 0 = none) (f : BattleGround → BattleGround) :
    (s.modifyBG instanceId f).battleGrounds 0 = none := by
  show Function.update s.battleGrounds instanceId _ 0 = none
  by_cases hid : 0 = instanceId
  · rw [← hid, Function.update_self, h]
    rfl
  · rw [Function.update_of_ne hid, h]

/-- What becomes of a counter and of the players it counts: nothing, or one is taken away. -/
def Settles (s s' : BattleGroundState) (instanceId : UInt32) (bg bg' : BattleGround) (team : Team) :
    Prop :=
  (bg'.invited team = bg.invited team ∧
      s'.accounted instanceId team = s.accounted instanceId team) ∨
    ∃ p ∈ s.accounted instanceId team, bg'.invited team = bg.invited team - 1 ∧
      s'.accounted instanceId team = (s.accounted instanceId team).erase p

/-- Every counter that is left settles. -/
theorem Tallied.settle (h : s.Tallied)
    (hsettle : ∀ instanceId bg', s'.battleGrounds instanceId = some bg' →
      ∃ bg, s.battleGrounds instanceId = some bg ∧ bg'.maxPlayersPerTeam = bg.maxPlayersPerTeam ∧
        ∀ team, Settles s s' instanceId bg bg' team) : s'.Tallied := by
  intro instanceId bg' hbg' team
  obtain ⟨bg, hbg, hmax, hteam⟩ := hsettle instanceId bg' hbg'
  obtain ⟨hcount, hle⟩ := h instanceId bg hbg team
  rcases hteam team with ⟨hsame, hacc⟩ | ⟨p, hp, hless, hacc⟩
  · rw [hsame, hacc, hmax]
    exact ⟨hcount, hle⟩
  · have hpos : 0 < (s.accounted instanceId team).card := Finset.card_pos.mpr ⟨p, hp⟩
    have hone : (1 : UInt32) ≤ bg.invited team := by
      rw [UInt32.le_iff_toNat_le, hcount]
      exact hpos
    rw [hless, hacc, hmax, Finset.card_erase_of_mem hp, UInt32.toNat_sub_of_le _ _ hone, hcount]
    exact ⟨rfl, (Nat.sub_le _ _).trans hle⟩

/-- Nobody comes and nobody goes. -/
theorem Tallied.same (h : s.Tallied)
    (hbg : ∀ instanceId bg', s'.battleGrounds instanceId = some bg' →
      ∃ bg, s.battleGrounds instanceId = some bg ∧ bg'.maxPlayersPerTeam = bg.maxPlayersPerTeam ∧
        bg'.invited = bg.invited ∧ ∀ p, s'.inside instanceId p = s.inside instanceId p)
    (hinvited : ∀ p, s'.queue.invitedTo p = s.queue.invitedTo p) : s'.Tallied := by
  refine h.settle fun instanceId bg' hbg' => ?_
  obtain ⟨bg, hold, hmax, hcount, hinside⟩ := hbg instanceId bg' hbg'
  refine ⟨bg, hold, hmax, fun team => Or.inl ⟨by rw [hcount], ?_⟩⟩
  ext p
  rw [mem_accounted, mem_accounted, hinside, hinvited]

section Leave

/-- A player no longer counts where he has counted, and the counter there is decreased. -/
theorem Tallied.leave (h : s.Tallied) (guid : ObjectGuid) (id : UInt32) (side : Team)
    (f : BattleGround → BattleGround)
    (hbg : s'.battleGrounds = Function.update s.battleGrounds id ((s.battleGrounds id).map f))
    (hinvited : ∀ bg, (f bg).invited = Function.update bg.invited side (bg.invited side - 1))
    (hmax : ∀ bg, (f bg).maxPlayersPerTeam = bg.maxPlayersPerTeam)
    (hacc : ∀ id team p, p ∈ s'.accounted id team ↔ p ∈ s.accounted id team ∧ p ≠ guid)
    (hhere : ∀ id' team, guid ∈ s.accounted id' team ↔ id' = id ∧ team = side) : s'.Tallied := by
  have hleft : ∀ id' team, ¬(id' = id ∧ team = side) →
      s'.accounted id' team = s.accounted id' team := by
    intro id' team hother
    ext p
    rw [hacc, and_iff_left_iff_imp]
    rintro hp rfl
    exact hother ((hhere id' team).mp hp)
  refine h.settle fun id' bg' hbg' => ?_
  rw [hbg] at hbg'
  by_cases hid : id' = id
  · subst hid
    rw [Function.update_self] at hbg'
    obtain ⟨bg, hold, rfl⟩ := Option.map_eq_some_iff.mp hbg'
    refine ⟨bg, hold, hmax bg, fun team => ?_⟩
    by_cases hside : team = side
    · subst hside
      refine Or.inr ⟨guid, (hhere id' team).mpr ⟨rfl, rfl⟩, ?_, ?_⟩
      · rw [hinvited, Function.update_self]
      · ext p
        rw [hacc, Finset.mem_erase, and_comm]
    · refine Or.inl ⟨?_, hleft id' team fun heq => hside heq.2⟩
      rw [hinvited, Function.update_of_ne hside]
  · rw [Function.update_of_ne hid] at hbg'
    exact ⟨bg', hbg', rfl, fun team => Or.inl ⟨rfl, hleft id' team fun heq => hid heq.1⟩⟩

/-- What `RemovePlayer` writes of the battlegrounds is a counter. -/
theorem removePlayer_frame (guid : ObjectGuid) :
    (s.removePlayer guid true).queue = s.queue.removePlayer guid ∧
      (s.removePlayer guid true).queueSlot = s.queueSlot ∧
      (s.removePlayer guid true).bgInstanceID = s.bgInstanceID ∧
      ∀ id p, (s.removePlayer guid true).inside id p = s.inside id p := by
  unfold BattleGroundState.removePlayer
  rw [if_pos rfl]
  split
  · exact ⟨rfl, rfl, rfl, fun _ _ => rfl⟩
  · refine ⟨rfl, rfl, rfl, fun id p => ?_⟩
    rw [inside_modifyBG]
    split_ifs with hid
    · rw [hid]
      rfl
    · rfl

/-- A player is taken out of the queue, and counted down if he was invited. -/
theorem Sound.removePlayer (h : s.Sound) (hqueued : s.queue.Queued guid) :
    (s.removePlayer guid true).Sound := by
  have hinvited := h.queue.invitedTo_removePlayer guid
  have hout := h.not_inside hqueued
  obtain ⟨hqueue, hslot, hid, hinside⟩ := removePlayer_frame (s := s) guid
  -- he is in no battleground, so he counts where he is invited
  have hacc : ∀ id team p, p ∈ (s.removePlayer guid true).accounted id team ↔
      p ∈ s.accounted id team ∧ p ≠ guid := by
    intro id team p
    rw [mem_accounted, mem_accounted, hinside, hqueue, hinvited]
    by_cases hp : p = guid
    · subst hp
      simp [hout]
    · simp [hp]
  -- so the count that goes down is that of the side he is invited to, and no other
  have hwhere : ∀ id team, guid ∈ s.accounted id team ↔
      s.queue.invitedTo guid = some (id, team) := by
    intro id team
    rw [mem_accounted, hout]
    simp
  constructor
  · rw [hqueue]
    exact h.queue.removePlayer guid
  · intro p i hpslot hi hp
    rw [hqueue, BattleGroundQueue.queued_removePlayer] at hp
    rw [hslot] at hpslot
    rw [hqueue, hinvited, if_neg hp.1]
    exact h.slots p i hpslot hi hp.2
  · intro id p team hin
    rw [hinside] at hin
    obtain ⟨hpid, hpslot, hnot⟩ := h.inside id p team hin
    rw [hqueue, hslot, ‹(s.removePlayer guid true).bgInstanceID = _›,
      BattleGroundQueue.queued_removePlayer]
    exact ⟨hpid, hpslot, fun hp => hnot hp.2⟩
  · cases hto : s.queue.invitedTo guid with
    | none =>
        have hsame : (s.removePlayer guid true).battleGrounds = s.battleGrounds := by
          unfold BattleGroundState.removePlayer
          rw [if_pos rfl, hto]
        refine h.tallied.settle fun id bg' hbg' => ?_
        refine ⟨bg', hsame ▸ hbg', rfl, fun team => Or.inl ⟨rfl, ?_⟩⟩
        ext p
        rw [hacc, and_iff_left_iff_imp]
        rintro hp rfl
        rw [hwhere, hto] at hp
        cases hp
    | some invitation =>
        obtain ⟨id, side⟩ := invitation
        refine h.tallied.leave guid id side (·.decreaseInvitedCount side) ?_ (fun _ => rfl)
          (fun _ => rfl) hacc ?_
        · unfold BattleGroundState.removePlayer
          rw [if_pos rfl, hto]
          rfl
        · intro id' team
          rw [hwhere, hto, Option.some.injEq, Prod.mk.injEq, eq_comm, @eq_comm _ side]
  · unfold BattleGroundState.removePlayer
    rw [if_pos rfl]
    split
    · exact h.absent
    · exact modifyBG_absent h.absent _

/-- A slot that is left is that of another player. -/
theorem slot_of_setSlot {p : ObjectGuid} {i : UInt32}
    (hslot : (s.setSlot guid none).queueSlot p = some i) : s.queueSlot p = some i := by
  have hslot' : Function.update s.queueSlot guid none p = some i := hslot
  by_cases hpg : p = guid
  · rw [hpg, Function.update_self] at hslot'
    cases hslot'
  · rwa [Function.update_of_ne hpg] at hslot'

/-- The slot of a player who is in no battleground is given up. -/
theorem Sound.freeSlot (h : s.Sound) (hout : ∀ id, s.inside id guid = none) :
    (s.setSlot guid none).Sound := by
  constructor
  · exact h.queue
  · intro p i hslot hi hp
    exact h.slots p i (slot_of_setSlot hslot) hi hp
  · intro id p team hin
    obtain ⟨hid, hslot, hnot⟩ := h.inside id p team hin
    have hpg : p ≠ guid := by
      rintro rfl
      cases (hout id).symm.trans hin
    refine ⟨hid, ?_, hnot⟩
    show (Function.update s.queueSlot guid none p).isSome
    rwa [Function.update_of_ne hpg]
  · exact h.tallied.same (fun id bg hbg => ⟨bg, hbg, rfl, rfl, fun _ => rfl⟩) fun _ => rfl
  · exact h.absent

/-- A queued player leaves the queue. -/
theorem Sound.leaveQueue (h : s.Sound) (hqueued : s.queue.Queued guid) :
    (s.leaveQueue guid).Sound :=
  (h.freeSlot (h.not_inside hqueued)).removePlayer hqueued

/-- A player who is in the battleground leaves it. -/
def left (s : BattleGroundState) (instanceId : UInt32) (guid : ObjectGuid) (side : Team) :
    BattleGroundState :=
  ((s.modifyBG instanceId fun bg =>
    (bg.erasePlayer guid).decreaseInvitedCount side).setSlot guid none).setBattleGroundId guid 0

theorem removePlayerAtLeave_of_inside (hin : s.inside instanceId guid = some team) :
    s.removePlayerAtLeave instanceId guid = s.left instanceId guid team := by
  unfold BattleGroundState.removePlayerAtLeave
  rw [show ((s.battleGrounds instanceId).bind fun bg => Lib.entryOf guid bg.players) = some team
    from hin]
  rfl

theorem removePlayerAtLeave_of_not_inside (hin : s.inside instanceId guid = none) :
    s.removePlayerAtLeave instanceId guid = s := by
  unfold BattleGroundState.removePlayerAtLeave
  rw [show ((s.battleGrounds instanceId).bind fun bg => Lib.entryOf guid bg.players) = none
    from hin]

/-- He is in no battleground then: there was only one. -/
theorem Sound.inside_left (h : s.Sound) (hin : s.inside instanceId guid = some team) (id : UInt32)
    (p : ObjectGuid) :
    (s.left instanceId guid team).inside id p = if p = guid then none else s.inside id p := by
  show (s.modifyBG instanceId _).inside id p = _
  rw [inside_modifyBG]
  by_cases hsame : id = instanceId
  · rw [if_pos hsame, hsame]
    unfold BattleGroundState.inside
    cases s.battleGrounds instanceId with
    | none => simp
    | some bg => exact Lib.entryOf_eraseEntry p
  · rw [if_neg hsame]
    split_ifs with hp
    · subst hp
      cases hother : s.inside id p with
      | none => rfl
      | some side =>
          exact absurd ((h.inside id p side hother).1.symm.trans (h.inside _ _ _ hin).1) hsame
    · rfl

theorem Sound.left (h : s.Sound) (hin : s.inside instanceId guid = some team) :
    (s.left instanceId guid team).Sound := by
  have hinside := h.inside_left hin
  obtain ⟨hid, -, hnot⟩ := h.inside instanceId guid team hin
  have hinvited := BattleGroundQueue.invitedTo_of_not_queued hnot
  constructor
  · exact h.queue
  · intro p i hslot hi hp
    exact h.slots p i (slot_of_setSlot hslot) hi hp
  · intro id p side hin'
    rw [hinside] at hin'
    split_ifs at hin' with hpg
    obtain ⟨hpid, hpslot, hpnot⟩ := h.inside id p side hin'
    refine ⟨?_, ?_, hpnot⟩
    · show Function.update s.bgInstanceID guid 0 p = id
      rwa [Function.update_of_ne hpg]
    · show (Function.update s.queueSlot guid none p).isSome
      rwa [Function.update_of_ne hpg]
  · refine h.tallied.leave guid instanceId team
      (fun bg => (bg.erasePlayer guid).decreaseInvitedCount team) rfl (fun _ => rfl) (fun _ => rfl)
      ?_ ?_
    · intro id side p
      rw [mem_accounted, mem_accounted, hinside]
      show _ ∨ s.queue.invitedTo p = _ ↔ _
      by_cases hp : p = guid
      · subst hp
        simp [hinvited]
      · simp [hp]
    · intro id side
      rw [mem_accounted, hinvited]
      constructor
      · rintro (hside | hnone)
        · obtain rfl : id = instanceId := (h.inside id guid side hside).1.symm.trans hid
          exact ⟨rfl, Option.some.inj (hside.symm.trans hin)⟩
        · cases hnone
      · rintro ⟨rfl, rfl⟩
        exact Or.inl hin
  · exact modifyBG_absent h.absent _

/-- `RemovePlayerAtLeave`. -/
theorem Sound.removePlayerAtLeave (h : s.Sound) (instanceId : UInt32) (guid : ObjectGuid) :
    (s.removePlayerAtLeave instanceId guid).Sound := by
  cases hin : s.inside instanceId guid with
  | none =>
      rw [removePlayerAtLeave_of_not_inside hin]
      exact h
  | some team =>
      rw [removePlayerAtLeave_of_inside hin]
      exact h.left hin

/-- Who leaves the battleground he is in, is in none. -/
theorem Sound.not_inside_leave (h : s.Sound) (guid : ObjectGuid) (id : UInt32) :
    (s.removePlayerAtLeave (s.bgInstanceID guid) guid).inside id guid = none := by
  cases hin : s.inside (s.bgInstanceID guid) guid with
  | none =>
      rw [removePlayerAtLeave_of_not_inside hin]
      cases hother : s.inside id guid with
      | none => rfl
      | some team =>
          obtain rfl := (h.inside id guid team hother).1
          rw [hin] at hother
          cases hother
  | some team =>
      rw [removePlayerAtLeave_of_inside hin, h.inside_left hin, if_pos rfl]

end Leave

section Port

/-- The invited player leaves the queue for the battleground: he counts as before. -/
theorem Sound.enter (h : s.Sound) {g : GroupQueueInfo} (hg : s.queue.groupOf guid = some g)
    (hwaits : ¬g.Waits) (hslot : (s.queueSlot guid).isSome) :
    (s.enter guid g.isInvitedToBGInstanceGUID g.groupTeam).Sound := by
  have hqueued := BattleGroundQueue.queued_of_groupOf hg
  have hto : s.queue.invitedTo guid = some (g.isInvitedToBGInstanceGUID, g.groupTeam) := by
    unfold BattleGroundQueue.invitedTo
    rw [hg]
    exact GroupQueueInfo.invitation_of_not_waits hwaits
  unfold BattleGroundState.enter
  split_ifs with hzero
  · exact h
  · -- his slot has the instance of his group
    obtain ⟨i, hi⟩ := Option.isSome_iff_exists.mp hslot
    have hne : i ≠ 0 := fun heq => hzero (heq ▸ hi)
    obtain ⟨side, hside⟩ := h.slots guid i hi hne hqueued
    obtain ⟨rfl, rfl⟩ := Prod.mk.injEq _ _ _ _ ▸ Option.some.inj (hto.symm.trans hside)
    -- he was inside none, so leaving the old one does nothing
    have hstays : (s.removePlayer guid false).removePlayerAtLeave (s.bgInstanceID guid) guid =
        s.removePlayer guid false :=
      removePlayerAtLeave_of_not_inside (h.not_inside hqueued (s.bgInstanceID guid))
    have harrives : ((s.removePlayer guid false).setBattleGroundId guid
        g.isInvitedToBGInstanceGUID).queueSlot guid = some g.isInvitedToBGInstanceGUID := hi
    rw [hstays]
    unfold BattleGroundState.arrive
    rw [if_pos harrives]
    -- the one battleground gets the one player more
    have hinside : ∀ id p, (((s.removePlayer guid false).setBattleGroundId guid
        g.isInvitedToBGInstanceGUID).modifyBG g.isInvitedToBGInstanceGUID
          (·.addPlayer guid g.groupTeam)).inside id p =
        if id = g.isInvitedToBGInstanceGUID ∧ p = guid then
          (s.battleGrounds id).map fun _ => g.groupTeam
        else s.inside id p := by
      intro id p
      rw [inside_modifyBG]
      by_cases hid : id = g.isInvitedToBGInstanceGUID
      · rw [if_pos hid, ← hid]
        show (s.battleGrounds id).bind (fun bg =>
          Lib.entryOf p (Lib.setEntry guid g.groupTeam bg.players)) = _
        unfold BattleGroundState.inside
        cases s.battleGrounds id with
        | none => simp
        | some bg =>
            simp only [Option.bind_some, Lib.entryOf_setEntry, true_and, Option.map_some]
      · rw [if_neg hid, if_neg fun heq => hid heq.1]
        rfl
    have hout := h.not_inside hqueued
    constructor
    · exact h.queue.removePlayer guid
    · intro p j hpslot hj hp
      have hp' := BattleGroundQueue.queued_removePlayer.mp hp
      obtain ⟨side, hside⟩ := h.slots p j hpslot hj hp'.2
      refine ⟨side, ?_⟩
      show (s.queue.removePlayer guid).invitedTo p = _
      rw [h.queue.invitedTo_removePlayer, if_neg hp'.1]
      exact hside
    · intro id p side hin
      rw [hinside] at hin
      by_cases hp : p = guid
      · subst hp
        by_cases hid : id = g.isInvitedToBGInstanceGUID
        · refine ⟨?_, hslot, fun hq => (BattleGroundQueue.queued_removePlayer.mp hq).1 rfl⟩
          show Function.update s.bgInstanceID p _ p = id
          rw [Function.update_self, hid]
        · rw [if_neg fun heq => hid heq.1, hout] at hin
          cases hin
      · rw [if_neg fun heq => hp heq.2] at hin
        obtain ⟨hpid, hpslot, hnot⟩ := h.inside id p side hin
        refine ⟨?_, hpslot, fun hq => hnot (BattleGroundQueue.queued_removePlayer.mp hq).2⟩
        show Function.update s.bgInstanceID guid _ p = id
        rwa [Function.update_of_ne hp]
    · refine h.tallied.settle fun id bg' hbg' => ?_
      have hbg'' : Function.update s.battleGrounds g.isInvitedToBGInstanceGUID
          ((s.battleGrounds g.isInvitedToBGInstanceGUID).map (·.addPlayer guid g.groupTeam)) id =
            some bg' := hbg'
      have hold : ∃ bg, s.battleGrounds id = some bg ∧
          bg'.maxPlayersPerTeam = bg.maxPlayersPerTeam ∧ bg'.invited = bg.invited := by
        by_cases hid : id = g.isInvitedToBGInstanceGUID
        · rw [hid, Function.update_self] at hbg''
          obtain ⟨bg, hbg, rfl⟩ := Option.map_eq_some_iff.mp hbg''
          exact ⟨bg, hid ▸ hbg, rfl, rfl⟩
        · rw [Function.update_of_ne hid] at hbg''
          exact ⟨bg', hbg'', rfl, rfl⟩
      obtain ⟨bg, hbg, hmax, hcount⟩ := hold
      refine ⟨bg, hbg, hmax, fun side => Or.inl ⟨by rw [hcount], ?_⟩⟩
      ext p
      rw [mem_accounted, mem_accounted, hinside]
      show _ ∨ (s.queue.removePlayer guid).invitedTo p = _ ↔ _
      rw [h.queue.invitedTo_removePlayer]
      by_cases hp : p = guid
      · subst hp
        rw [if_pos rfl, hout, hto, hbg]
        by_cases hid : id = g.isInvitedToBGInstanceGUID
        · rw [if_pos ⟨hid, rfl⟩]
          simp [hid]
        · rw [if_neg fun heq => hid heq.1]
          simp [@eq_comm _ _ id, hid]
      · rw [if_neg hp, if_neg fun heq => hp heq.2]
    · exact modifyBG_absent h.absent _

/-- `HandleBattleFieldPortOpcode`. -/
theorem Sound.handleBattleFieldPort (h : s.Sound) (guid : ObjectGuid) (req : PortRequest) :
    (s.handleBattleFieldPort guid req).Sound := by
  unfold BattleGroundState.handleBattleFieldPort
  cases hslot : s.queueSlot guid with
  | none => exact h
  | some i =>
      cases hg : s.queue.groupOf guid with
      | none => exact h
      | some g =>
          have hleaves := h.leaveQueue (BattleGroundQueue.queued_of_groupOf hg)
          simp only
          split
          · exact h
          · rename_i hnot
            split
            · split
              · exact hleaves
              · exact h
            · split
              · rename_i haction
                split
                · exact h
                · split
                  · exact hleaves
                  · exact h.enter hg (fun hwaits => hnot ⟨hwaits, haction⟩) (hslot ▸ rfl)
              · split
                · exact hleaves
                · exact h

/-- `BGQueueRemoveEvent::Execute`. -/
theorem Sound.removeEvent (h : s.Sound) (guid : ObjectGuid) (instanceId removeTime : UInt32) :
    (s.removeEvent guid instanceId removeTime).Sound := by
  unfold BattleGroundState.removeEvent
  split_ifs with hinvited
  · obtain ⟨g, hg, -⟩ := (Option.any_eq_true _ _).mp hinvited.2
    exact h.leaveQueue (BattleGroundQueue.queued_of_groupOf hg)
  · exact h

end Port

section Online

/-- The first loop of `Update`. -/
theorem Sound.purge (h : s.Sound) (guid : ObjectGuid) (now : UInt32) : (s.purge guid now).Sound := by
  unfold BattleGroundState.purge
  split_ifs with hstale honline
  · obtain ⟨info, hinfo, -⟩ := (Option.any_eq_true _ _).mp hstale
    exact h.leaveQueue (Option.isSome_iff_exists.mpr ⟨info, hinfo⟩)
  · obtain ⟨info, hinfo, -⟩ := (Option.any_eq_true _ _).mp hstale
    exact h.removePlayer (Option.isSome_iff_exists.mpr ⟨info, hinfo⟩)
  · exact h

/-- `GiveLevel`. -/
theorem Sound.giveLevel (h : s.Sound) (guid : ObjectGuid) : (s.giveLevel guid).Sound := by
  unfold BattleGroundState.giveLevel
  split_ifs with hcond
  · obtain ⟨g, hg⟩ := Option.isSome_iff_exists.mp hcond.2
    exact h.leaveQueue (BattleGroundQueue.queued_of_groupOf hg)
  · exact h

/-- The queue is written, but nobody comes, goes or gets another invitation. -/
theorem Sound.setQueue (h : s.Sound) {q : BattleGroundQueue} (hq : q.Sound)
    (hinvited : ∀ p, q.invitedTo p = s.queue.invitedTo p)
    (hqueued : ∀ p, q.Queued p ↔ s.queue.Queued p) :
    BattleGroundState.Sound { s with queue := q } := by
  constructor
  · exact hq
  · intro p i hslot hi hp
    obtain ⟨team, hteam⟩ := h.slots p i hslot hi ((hqueued p).mp hp)
    exact ⟨team, (hinvited p).trans hteam⟩
  · intro id p team hin
    obtain ⟨hid, hslot, hnot⟩ := h.inside id p team hin
    exact ⟨hid, hslot, fun hp => hnot ((hqueued p).mp hp)⟩
  · exact h.tallied.same (fun id bg hbg => ⟨bg, hbg, rfl, rfl, fun _ => rfl⟩) hinvited
  · exact h.absent

/-- `LogoutPlayer`. -/
theorem Sound.logoutPlayer (h : s.Sound) (guid : ObjectGuid) (now : UInt32) :
    (s.logoutPlayer guid now).Sound := by
  have hleft := h.removePlayerAtLeave (s.bgInstanceID guid) guid
  unfold BattleGroundState.logoutPlayer
  simp only
  split_ifs with hslot
  · exact (hleft.freeSlot (h.not_inside_leave guid)).setQueue (hleft.queue.playerLoggedOut guid now)
      (fun p => BattleGroundQueue.invitedTo_playerLoggedOut guid p now)
      fun p => BattleGroundQueue.queued_playerLoggedOut
  · exact hleft

/-- A queued player gets a slot with the instance of his group. -/
theorem Sound.restoreSlot (h : s.Sound) {g : GroupQueueInfo} (hg : s.queue.groupOf guid = some g) :
    (s.setSlot guid (some g.isInvitedToBGInstanceGUID)).Sound := by
  constructor
  · exact h.queue
  · intro p i hslot hi hp
    have hslot' : Function.update s.queueSlot guid (some g.isInvitedToBGInstanceGUID) p = some i :=
      hslot
    by_cases hpg : p = guid
    · rw [hpg, Function.update_self] at hslot'
      obtain rfl := Option.some.inj hslot'
      refine ⟨g.groupTeam, ?_⟩
      show s.queue.invitedTo p = _
      unfold BattleGroundQueue.invitedTo
      rw [hpg, hg]
      exact GroupQueueInfo.invitation_of_not_waits hi
    · rw [Function.update_of_ne hpg] at hslot'
      exact h.slots p i hslot' hi hp
  · intro id p team hin
    obtain ⟨hid, hslot, hnot⟩ := h.inside id p team hin
    refine ⟨hid, ?_, hnot⟩
    show (Function.update s.queueSlot guid _ p).isSome
    by_cases hpg : p = guid
    · rw [hpg, Function.update_self]
      rfl
    · rwa [Function.update_of_ne hpg]
  · exact h.tallied.same (fun id bg hbg => ⟨bg, hbg, rfl, rfl, fun _ => rfl⟩) fun _ => rfl
  · exact h.absent

/-- `PlayerLoggedIn`. -/
theorem Sound.playerLoggedIn (h : s.Sound) (guid : ObjectGuid) : (s.playerLoggedIn guid).Sound := by
  unfold BattleGroundState.playerLoggedIn
  split
  · exact h
  · rename_i g hg
    exact (h.restoreSlot hg).setQueue (h.queue.playerLoggedIn guid)
      (fun p => BattleGroundQueue.invitedTo_playerLoggedIn guid p)
      fun p => BattleGroundQueue.queued_playerLoggedIn

/-- A battleground of another type is entered or left. -/
theorem Sound.enterOther (h : s.Sound) (guid : ObjectGuid) (instanceId : UInt32) :
    (s.enterOther guid instanceId).Sound := by
  have hleft := h.removePlayerAtLeave (s.bgInstanceID guid) guid
  unfold BattleGroundState.enterOther
  split_ifs
  · constructor
    · exact hleft.queue
    · exact hleft.slots
    · intro id p team hin
      obtain ⟨hid, hslot, hnot⟩ := hleft.inside id p team hin
      refine ⟨?_, hslot, hnot⟩
      show Function.update (s.removePlayerAtLeave (s.bgInstanceID guid) guid).bgInstanceID guid
        instanceId p = id
      have hpg : p ≠ guid := by
        rintro rfl
        cases (h.not_inside_leave p id).symm.trans hin
      rwa [Function.update_of_ne hpg]
    · exact hleft.tallied.same (fun id bg hbg => ⟨bg, hbg, rfl, rfl, fun _ => rfl⟩) fun _ => rfl
    · exact hleft.absent
  · exact h

end Online

section Join

variable {members : List Joiner}

/-- The slots the joining players get. -/
theorem queueSlot_foldl (members : List Joiner) (p : ObjectGuid) :
    (members.foldl (fun s' member => s'.setSlot member.guid (some 0)) s).queueSlot p =
      if p ∈ members.map Joiner.guid then some 0 else s.queueSlot p := by
  induction members generalizing s with
  | nil => rfl
  | cons member rest ih =>
      rw [List.foldl_cons, ih, List.map_cons]
      show (if _ then _ else Function.update s.queueSlot member.guid (some 0) p) = _
      by_cases hrest : p ∈ rest.map Joiner.guid
      · rw [if_pos hrest, if_pos (List.mem_cons_of_mem _ hrest)]
      · rw [if_neg hrest]
        by_cases hp : p = member.guid
        · rw [hp, Function.update_self, if_pos List.mem_cons_self]
        · rw [Function.update_of_ne hp, if_neg]
          rw [List.mem_cons, not_or]
          exact ⟨hp, hrest⟩

/-- Only the slots are written. -/
theorem frame_foldl (members : List Joiner) :
    (members.foldl (fun s' member => s'.setSlot member.guid (some 0)) s).queue = s.queue ∧
      (members.foldl (fun s' member => s'.setSlot member.guid (some 0)) s).battleGrounds =
        s.battleGrounds ∧
      (members.foldl (fun s' member => s'.setSlot member.guid (some 0)) s).bgInstanceID =
        s.bgInstanceID := by
  induction members generalizing s with
  | nil => exact ⟨rfl, rfl, rfl⟩
  | cons member rest ih => exact ih

/-- Players join the queue who have no slot for it. -/
theorem Sound.join (h : s.Sound) (leader : Joiner) (grp : Option PlayerGroup) (req : JoinRequest)
    (isPremade : Bool) (excludedMembers : List ObjectGuid) :
    (s.join leader grp req isPremade excludedMembers).Sound := by
  unfold BattleGroundState.join
  split_ifs with hmay
  · have hjoined := h.queue.joined_addGroup req isPremade
      fun member hmember => (hmay member hmember).2
    have hslots := queueSlot_foldl
      (s := { s with queue := s.queue.addGroup leader grp req isPremade excludedMembers })
      (BattleGroundQueue.newcomers leader grp excludedMembers)
    obtain ⟨hqueue, hbgs, hids⟩ := frame_foldl
      (s := { s with queue := s.queue.addGroup leader grp req isPremade excludedMembers })
      (BattleGroundQueue.newcomers leader grp excludedMembers)
    have hin : ∀ id p, BattleGroundState.inside _ id p = s.inside id p := fun id p =>
      congrArg (fun bgs => (bgs id).bind fun bg => Lib.entryOf p bg.players) hbgs
    constructor
    · rw [hqueue]
      exact h.queue.addGroup fun member hmember => (hmay member hmember).2
    · intro p i hslot hi hp
      rw [hqueue] at hp ⊢
      rw [hslots] at hslot
      split_ifs at hslot with hnew
      · exact absurd (Option.some.inj hslot).symm hi
      · rcases hjoined.queued p hp with hold | ⟨member, hmember, rfl⟩
        · obtain ⟨team, hteam⟩ := h.slots p i hslot hi hold
          exact ⟨team, (hjoined.invited p).trans hteam⟩
        · exact absurd (List.mem_map_of_mem hmember) hnew
    · intro id p team hinside
      obtain ⟨hid, hslot, hnot⟩ := h.inside id p team ((hin id p).symm.trans hinside)
      rw [hqueue, hids, hslots]
      refine ⟨hid, ?_, fun hp => ?_⟩
      · split_ifs
        · rfl
        · exact hslot
      · rcases hjoined.queued p hp with hold | ⟨member, hmember, rfl⟩
        · exact hnot hold
        · rw [(hmay member hmember).1] at hslot
          cases hslot
    · refine h.tallied.same (fun id bg hbg => ?_) fun p => ?_
      · rw [hbgs] at hbg
        exact ⟨bg, hbg, rfl, rfl, hin id⟩
      · rw [hqueue]
        exact hjoined.invited p
    · rw [hbgs]
      exact h.absent
  · exact h

/-- A new battleground has nobody. -/
theorem Sound.create (h : s.Sound) (instanceId maxPlayersPerTeam : UInt32) :
    (s.create instanceId maxPlayersPerTeam).Sound := by
  unfold BattleGroundState.create
  split_ifs with hnew
  · obtain ⟨hne, habsent, huninvited⟩ := hnew
    have hinside : ∀ id p, BattleGroundState.inside { s with
        battleGrounds :=
          Function.update s.battleGrounds instanceId (some (.createNew maxPlayersPerTeam)) } id p =
        s.inside id p := by
      intro id p
      unfold BattleGroundState.inside
      show (Function.update s.battleGrounds instanceId _ id).bind _ = _
      by_cases hid : id = instanceId
      · rw [hid, Function.update_self, habsent]
        rfl
      · rw [Function.update_of_ne hid]
    constructor
    · exact h.queue
    · exact h.slots
    · intro id p team hin
      rw [hinside] at hin
      exact h.inside id p team hin
    · intro id bg hbg team
      have hbg' : Function.update s.battleGrounds instanceId
        (some (.createNew maxPlayersPerTeam)) id = some bg := hbg
      have hacc : BattleGroundState.accounted { s with
          battleGrounds :=
            Function.update s.battleGrounds instanceId (some (.createNew maxPlayersPerTeam)) } id
          team = s.accounted id team := by
        ext p
        rw [mem_accounted, mem_accounted, hinside]
      rw [hacc]
      by_cases hid : id = instanceId
      · subst hid
        rw [Function.update_self] at hbg'
        obtain rfl := Option.some.inj hbg'
        have hempty : s.accounted id team = ∅ := by
          refine Finset.eq_empty_of_forall_notMem fun p hp => ?_
          rcases mem_accounted.mp hp with hin | hinvited
          · unfold BattleGroundState.inside at hin
            rw [habsent] at hin
            cases hin
          · obtain ⟨info, hinfo⟩ :=
              Option.isSome_iff_exists.mp (BattleGroundQueue.queued_of_invitedTo hinvited)
            have hall := huninvited (p, info) (Lib.mem_of_entryOf hinfo)
            simp [hinvited] at hall
        rw [hempty]
        exact ⟨rfl, Nat.zero_le _⟩
      · rw [Function.update_of_ne hid] at hbg'
        exact h.tallied id bg hbg' team
    · show Function.update s.battleGrounds instanceId _ 0 = none
      rw [Function.update_of_ne hne.symm, h.absent]
  · exact h

end Join

section Invite

/-- A group that waits is invited: the state after the loop. -/
def invited (s : BattleGroundState) (ptr : GroupPtr) (g : GroupQueueInfo) (instanceId now : UInt32)
    (world : ObjectGuid → Option WorldPlayer) : BattleGroundState :=
  g.players.foldl (inviteMember world instanceId g.groupTeam)
    { s with queue := s.queue.inviteGroupToBG ptr instanceId now g.groupTeam }

variable (world : ObjectGuid → Option WorldPlayer) (instanceId : UInt32) (side : Team)
  {bg : BattleGround}

/-- The loop of `InviteGroupToBG` counts up once for each player it reaches. -/
theorem battleGrounds_inviteMembers (players : List ObjectGuid)
    (hbg : s.battleGrounds instanceId = some bg) :
    ∃ bg', (players.foldl (inviteMember world instanceId side) s).battleGrounds instanceId =
        some bg' ∧
      bg'.maxPlayersPerTeam = bg.maxPlayersPerTeam ∧ bg'.players = bg.players ∧
      bg'.invited side = bg.invited side + UInt32.ofNat (players.countP (reaches world)) ∧
      ∀ team, team ≠ side → bg'.invited team = bg.invited team := by
  induction players generalizing s bg with
  | nil => exact ⟨bg, hbg, rfl, rfl, by simp, fun _ _ => rfl⟩
  | cons p rest ih =>
      rw [List.foldl_cons, List.countP_cons]
      by_cases hreach : reaches world p
      · have hfirst : (inviteMember world instanceId side s p).battleGrounds instanceId =
            some (bg.increaseInvitedCount side) := by
          have hwritten : (s.modifyBG instanceId (·.increaseInvitedCount side)).battleGrounds
              instanceId = some (bg.increaseInvitedCount side) := by
            show Function.update _ _ _ _ = _
            rw [Function.update_self, hbg]
            rfl
          unfold inviteMember
          rw [if_pos hreach]
          simp only
          split <;> exact hwritten
        obtain ⟨bg', hbg', hmax, hplayers, hcount, hother⟩ := ih hfirst
        refine ⟨bg', hbg', hmax, hplayers, ?_, fun team hteam => ?_⟩
        · have hone : (bg.increaseInvitedCount side).invited side = bg.invited side + 1 :=
            Function.update_self _ _ _
          rw [hcount, hone, if_pos hreach, UInt32.ofNat_add, add_assoc, add_comm (1 : UInt32)]
          rfl
        · rw [hother team hteam]
          exact Function.update_of_ne hteam _ _
      · have hskip : inviteMember world instanceId side s p = s := if_neg hreach
        rw [hskip, if_neg hreach]
        exact ih hbg

/-- What else the loop leaves alone. -/
theorem frame_inviteMembers (players : List ObjectGuid) :
    (players.foldl (inviteMember world instanceId side) s).queue = s.queue ∧
      (players.foldl (inviteMember world instanceId side) s).bgInstanceID = s.bgInstanceID ∧
      (∀ id, id ≠ instanceId →
        (players.foldl (inviteMember world instanceId side) s).battleGrounds id =
          s.battleGrounds id) ∧
      ∀ p, (players.foldl (inviteMember world instanceId side) s).queueSlot p = s.queueSlot p ∨
        p ∈ players ∧ (s.queueSlot p).isSome ∧
          (players.foldl (inviteMember world instanceId side) s).queueSlot p = some instanceId := by
  induction players generalizing s with
  | nil => exact ⟨rfl, rfl, fun _ _ => rfl, fun _ => Or.inl rfl⟩
  | cons q rest ih =>
      rw [List.foldl_cons]
      obtain ⟨hqueue, hid, hbgs, hslot⟩ := ih (s := inviteMember world instanceId side s q)
      have hstep : (inviteMember world instanceId side s q).queue = s.queue ∧
          (inviteMember world instanceId side s q).bgInstanceID = s.bgInstanceID ∧
          (∀ id, id ≠ instanceId →
            (inviteMember world instanceId side s q).battleGrounds id = s.battleGrounds id) ∧
          ∀ p, (inviteMember world instanceId side s q).queueSlot p = s.queueSlot p ∨
            p = q ∧ (s.queueSlot p).isSome ∧
              (inviteMember world instanceId side s q).queueSlot p = some instanceId := by
        unfold inviteMember
        split
        · simp only
          split
          · rename_i hsome
            refine ⟨rfl, rfl, fun id hne => Function.update_of_ne hne _ _, fun p => ?_⟩
            by_cases hp : p = q
            · exact Or.inr ⟨hp, hp ▸ hsome, hp ▸ Function.update_self _ _ _⟩
            · exact Or.inl (Function.update_of_ne hp _ _)
          · exact ⟨rfl, rfl, fun id hne => Function.update_of_ne hne _ _, fun _ => Or.inl rfl⟩
        · exact ⟨rfl, rfl, fun _ _ => rfl, fun _ => Or.inl rfl⟩
      obtain ⟨hqueue', hid', hbgs', hslot'⟩ := hstep
      refine ⟨hqueue.trans hqueue', hid.trans hid',
        fun id hne => (hbgs id hne).trans (hbgs' id hne), fun p => ?_⟩
      rcases hslot p with hsame | ⟨hmem, hsome, hset⟩
      · rw [hsame]
        exact (hslot' p).imp_right fun ⟨hp, hsome, hset⟩ => ⟨hp ▸ List.mem_cons_self, hsome, hset⟩
      · refine Or.inr ⟨List.mem_cons_of_mem _ hmem, ?_, hset⟩
        rcases hslot' p with hsame | ⟨-, hsome', -⟩
        · exact hsame ▸ hsome
        · exact hsome'

/-- `InviteGroupToBG` invites a group that waits, and otherwise does nothing. -/
theorem inviteGroupToBG_cases (s : BattleGroundState) (bracket : BattleGroundBracketId)
    (index : GroupTypes) (ptr : GroupPtr) (instanceId now : UInt32)
    (world : ObjectGuid → Option WorldPlayer) :
    (s.inviteGroupToBG bracket index ptr instanceId now world = s ∧
      ¬∃ g bg, ptr ∈ s.queue.queuedGroups bracket index ∧ s.queue.groupInfos ptr = some g ∧
        g.Waits ∧ s.battleGrounds instanceId = some bg) ∨
    ∃ g bg, ptr ∈ s.queue.queuedGroups bracket index ∧ s.queue.groupInfos ptr = some g ∧
      g.Waits ∧ s.battleGrounds instanceId = some bg ∧
      s.inviteGroupToBG bracket index ptr instanceId now world =
        s.invited ptr g instanceId now world := by
  unfold BattleGroundState.inviteGroupToBG
  split_ifs with hcond
  · obtain ⟨hstored, hthere⟩ := hcond
    obtain ⟨bg, hbg⟩ := Option.isSome_iff_exists.mp hthere
    cases hg : s.queue.groupInfos ptr with
    | none =>
        refine Or.inl ⟨rfl, ?_⟩
        rintro ⟨g, bg', -, hg', -⟩
        cases hg'
    | some g =>
        by_cases hwaits : g.Waits
        · exact Or.inr ⟨g, bg, hstored, rfl, hwaits, hbg, if_pos hwaits⟩
        · refine Or.inl ⟨?_, ?_⟩
          · simp only
            rw [if_neg hwaits,
              BattleGroundQueue.inviteGroupToBG_of_not_waits hg hwaits instanceId now]
          · rintro ⟨g', bg', -, hg', hwaits', -⟩
            obtain rfl := Option.some.inj hg'
            exact hwaits hwaits'
  · refine Or.inl ⟨rfl, ?_⟩
    rintro ⟨g, bg, hstored, -, -, hbg⟩
    exact hcond ⟨hstored, Option.isSome_iff_exists.mpr ⟨bg, hbg⟩⟩

section Waiting

variable {instanceId} (now : UInt32) {bracket : BattleGroundBracketId} {index : GroupTypes}
  {ptr : GroupPtr} {g : GroupQueueInfo}

/-- Nobody has entered. -/
theorem inside_invited (hbg : s.battleGrounds instanceId = some bg) (id : UInt32)
    (p : ObjectGuid) : (s.invited ptr g instanceId now world).inside id p = s.inside id p := by
  obtain ⟨-, -, hbgs, -⟩ := frame_inviteMembers world instanceId g.groupTeam g.players
    (s := { s with queue := s.queue.inviteGroupToBG ptr instanceId now g.groupTeam })
  obtain ⟨bg', hbg', -, hplayers, -⟩ :=
    battleGrounds_inviteMembers world instanceId g.groupTeam g.players
      (s := { s with queue := s.queue.inviteGroupToBG ptr instanceId now g.groupTeam }) hbg
  unfold BattleGroundState.inside BattleGroundState.invited
  by_cases hid : id = instanceId
  · rw [hid, hbg', hbg]
    show Lib.entryOf p bg'.players = Lib.entryOf p bg.players
    rw [hplayers]
  · rw [hbgs id hid]

variable (h : s.Sound) (hstored : ptr ∈ s.queue.queuedGroups bracket index)
  (hg : s.queue.groupInfos ptr = some g) (hwaits : g.Waits)
  (hbg : s.battleGrounds instanceId = some bg)

include h hbg in
theorem instance_ne_zero : instanceId ≠ 0 := by
  rintro rfl
  rw [h.absent] at hbg
  cases hbg

include h hbg in
/-- The counter grows by the number of those the invitation reaches. -/
theorem count_invited : ∃ bg',
    (s.invited ptr g instanceId now world).battleGrounds instanceId = some bg' ∧
      bg'.maxPlayersPerTeam = bg.maxPlayersPerTeam ∧
      (∀ team, team ≠ g.groupTeam → bg'.invited team = bg.invited team) ∧
      ((s.accounted instanceId g.groupTeam).card + g.players.length ≤ bg.maxPlayersPerTeam.toNat →
        (bg'.invited g.groupTeam).toNat = (s.accounted instanceId g.groupTeam).card +
          g.players.countP (reaches world)) := by
  obtain ⟨bg', hbg', hmax, -, hcount, hother⟩ :=
    battleGrounds_inviteMembers world instanceId g.groupTeam g.players
      (s := { s with queue := s.queue.inviteGroupToBG ptr instanceId now g.groupTeam }) hbg
  refine ⟨bg', hbg', hmax, hother, fun hroom => ?_⟩
  obtain ⟨hold, -⟩ := h.tallied instanceId bg hbg g.groupTeam
  have hfew : g.players.countP (reaches world) ≤ g.players.length := List.countP_le_length
  have hsize := bg.maxPlayersPerTeam.toNat_lt
  rw [hcount, UInt32.toNat_add, hold, UInt32.toNat_ofNat', Nat.mod_eq_of_lt, Nat.mod_eq_of_lt]
  · omega
  · rw [Nat.mod_eq_of_lt] <;> omega

include h hstored hg hwaits hbg

/-- The players of the group hold an invitation. -/
theorem invitedTo_invited (p : ObjectGuid) :
    (s.invited ptr g instanceId now world).queue.invitedTo p =
      if p ∈ g.players then some (instanceId, g.groupTeam) else s.queue.invitedTo p := by
  have hqueue := (frame_inviteMembers world instanceId g.groupTeam g.players
    (s := { s with queue := s.queue.inviteGroupToBG ptr instanceId now g.groupTeam })).1
  unfold BattleGroundState.invited
  rw [hqueue]
  exact h.queue.invitedTo_inviteGroupToBG hstored hg hwaits (instance_ne_zero h hbg) now

/-- They count for the side of the group, and have not counted before. -/
theorem accounted_invited (id : UInt32) (team : Team) :
    (s.invited ptr g instanceId now world).accounted id team =
      if id = instanceId ∧ team = g.groupTeam then s.accounted id team ∪ g.players.toFinset
      else s.accounted id team := by
  ext p
  rw [mem_accounted, inside_invited world now hbg, invitedTo_invited world now h hstored hg hwaits hbg]
  by_cases hp : p ∈ g.players
  · obtain ⟨hqueued, hnone⟩ := h.queue.invitedTo_of_waits hstored hg hwaits hp
    rw [if_pos hp, h.not_inside hqueued]
    split_ifs with hhere
    · simp [hhere, hp]
    · rw [mem_accounted, hnone, h.not_inside hqueued]
      simp [@eq_comm _ instanceId, @eq_comm _ g.groupTeam, hhere]
  · rw [if_neg hp]
    split_ifs with hhere
    · simp [hp]
    · exact mem_accounted.symm

/-- The number of players who count grows by that of the group. -/
theorem card_accounted_invited :
    ((s.invited ptr g instanceId now world).accounted instanceId g.groupTeam).card =
      (s.accounted instanceId g.groupTeam).card + g.players.length := by
  rw [accounted_invited world now h hstored hg hwaits hbg, if_pos ⟨rfl, rfl⟩, Finset.card_union_of_disjoint,
    List.toFinset_card_of_nodup g.distinct]
  rw [Finset.disjoint_left]
  intro p hp hmem
  obtain ⟨hqueued, hnone⟩ :=
    h.queue.invitedTo_of_waits hstored hg hwaits (List.mem_toFinset.mp hmem)
  rw [mem_accounted, hnone, h.not_inside hqueued] at hp
  simp at hp

/-- The invitation keeps the counters right exactly when it reaches every player of the group and
the side has room for them. -/
theorem tallied_invited_iff : (s.invited ptr g instanceId now world).Tallied ↔
    (∀ p ∈ g.players, reaches world p) ∧
      (s.accounted instanceId g.groupTeam).card + g.players.length ≤
        bg.maxPlayersPerTeam.toNat := by
  obtain ⟨bg', (hbg' : (s.invited ptr g instanceId now world).battleGrounds instanceId = some bg'),
    hmax, hother, hcount⟩ := count_invited world now h hbg
  have hcard := card_accounted_invited world now h hstored hg hwaits hbg
  constructor
  · intro htallied
    obtain ⟨hnow, hle⟩ := htallied instanceId bg' hbg' g.groupTeam
    rw [hcard, hmax] at hle
    rw [hcard, hcount hle] at hnow
    exact ⟨List.countP_eq_length.mp (Nat.add_left_cancel hnow), hle⟩
  · rintro ⟨hall, hroom⟩ id bg'' hbg'' team
    have hframe := (frame_inviteMembers world instanceId g.groupTeam g.players
      (s := { s with queue := s.queue.inviteGroupToBG ptr instanceId now g.groupTeam })).2.2.1 id
    by_cases hid : id = instanceId
    · subst hid
      obtain rfl : bg' = bg'' := Option.some.inj (hbg'.symm.trans hbg'')
      by_cases hteam : team = g.groupTeam
      · subst hteam
        rw [hcard, hcount hroom, hmax, List.countP_eq_length.mpr hall]
        exact ⟨rfl, hroom⟩
      · rw [accounted_invited world now h hstored hg hwaits hbg, if_neg fun heq => hteam heq.2,
          hother team hteam, hmax]
        exact h.tallied id bg hbg team
    · rw [accounted_invited world now h hstored hg hwaits hbg, if_neg fun heq => hid heq.1]
      exact h.tallied id bg'' ((hframe hid).symm.trans hbg'') team

/-- The rest of the invariant does not depend on who is reached. -/
theorem Sound.invited (htallied : (s.invited ptr g instanceId now world).Tallied) :
    (s.invited ptr g instanceId now world).Sound := by
  have hinvited := invitedTo_invited world now h hstored hg hwaits hbg
  obtain ⟨hqueue, hid, hbgs, hslot⟩ := frame_inviteMembers world instanceId g.groupTeam g.players
    (s := { s with queue := s.queue.inviteGroupToBG ptr instanceId now g.groupTeam })
  have hqueued : ∀ p, (s.invited ptr g instanceId now world).queue.Queued p ↔ s.queue.Queued p := by
    intro p
    unfold BattleGroundState.invited BattleGroundQueue.Queued
    rw [hqueue, BattleGroundQueue.playerInfo_inviteGroupToBG]
  constructor
  · unfold BattleGroundState.invited
    rw [hqueue]
    have hone := h.queue.inviteOne instanceId now ptr
    unfold BattleGroundQueue.inviteOne at hone
    rwa [hg] at hone
  · intro p i hpslot hi hp
    rw [hinvited]
    split_ifs with hmem
    · -- his slot was empty, or had nothing but this queue
      rcases hslot p with hsame | ⟨-, -, hset⟩
      · obtain ⟨team, hteam⟩ := h.slots p i (hsame.symm.trans hpslot) hi ((hqueued p).mp hp)
        rw [(h.queue.invitedTo_of_waits hstored hg hwaits hmem).2] at hteam
        cases hteam
      · obtain rfl := Option.some.inj (hset.symm.trans hpslot)
        exact ⟨g.groupTeam, rfl⟩
    · rcases hslot p with hsame | ⟨hin, -, -⟩
      · exact h.slots p i (hsame.symm.trans hpslot) hi ((hqueued p).mp hp)
      · exact absurd hin hmem
  · intro id p team hin
    rw [inside_invited world now hbg] at hin
    obtain ⟨hpid, hpslot, hnot⟩ := h.inside id p team hin
    refine ⟨?_, ?_, fun hp => hnot ((hqueued p).mp hp)⟩
    · unfold BattleGroundState.invited
      rw [hid]
      exact hpid
    · rcases hslot p with hsame | ⟨-, -, hset⟩
      · exact (congrArg Option.isSome hsame).trans hpslot
      · exact congrArg Option.isSome hset
  · exact htallied
  · exact (hbgs 0 (instance_ne_zero h hbg).symm).trans h.absent

end Waiting

end Invite

section Step

/-- `setStatus`: a status is not counted. -/
theorem Sound.setStatus (h : s.Sound) (instanceId : UInt32) (status : BattleGroundStatus) :
    (s.modifyBG instanceId ({ · with status := status })).Sound := by
  have hinside : ∀ id p, (s.modifyBG instanceId ({ · with status := status })).inside id p =
      s.inside id p := by
    intro id p
    rw [inside_modifyBG]
    split_ifs with hid
    · rw [hid]
      rfl
    · rfl
  constructor
  · exact h.queue
  · exact h.slots
  · intro id p team hin
    rw [hinside] at hin
    exact h.inside id p team hin
  · refine h.tallied.same (fun id bg' hbg' => ?_) fun _ => rfl
    have hbg'' : Function.update s.battleGrounds instanceId
      ((s.battleGrounds instanceId).map ({ · with status := status })) id = some bg' := hbg'
    by_cases hid : id = instanceId
    · rw [hid, Function.update_self] at hbg''
      obtain ⟨bg, hbg, rfl⟩ := Option.map_eq_some_iff.mp hbg''
      exact ⟨bg, hid ▸ hbg, rfl, rfl, hinside id⟩
    · rw [Function.update_of_ne hid] at hbg''
      exact ⟨bg', hbg'', rfl, rfl, hinside id⟩
  · exact modifyBG_absent h.absent _

/-- A battleground is deleted. -/
theorem Sound.delete (h : s.Sound) (instanceId : UInt32) : BattleGroundState.Sound
    { s with battleGrounds := Function.update s.battleGrounds instanceId none } := by
  have hinside : ∀ id p, id ≠ instanceId → BattleGroundState.inside
      { s with battleGrounds := Function.update s.battleGrounds instanceId none } id p =
        s.inside id p := by
    intro id p hid
    unfold BattleGroundState.inside
    show (Function.update s.battleGrounds instanceId none id).bind _ = _
    rw [Function.update_of_ne hid]
  have hgone : ∀ p, BattleGroundState.inside
      { s with battleGrounds := Function.update s.battleGrounds instanceId none } instanceId p =
        none := by
    intro p
    unfold BattleGroundState.inside
    show (Function.update s.battleGrounds instanceId none instanceId).bind _ = _
    rw [Function.update_self]
    rfl
  constructor
  · exact h.queue
  · exact h.slots
  · intro id p team hin
    by_cases hid : id = instanceId
    · rw [hid, hgone] at hin
      cases hin
    · rw [hinside id p hid] at hin
      exact h.inside id p team hin
  · refine h.tallied.same (fun id bg hbg => ?_) fun _ => rfl
    have hbg' : Function.update s.battleGrounds instanceId none id = some bg := hbg
    by_cases hid : id = instanceId
    · rw [hid, Function.update_self] at hbg'
      cases hbg'
    · rw [Function.update_of_ne hid] at hbg'
      exact ⟨bg, hbg', rfl, rfl, fun p => hinside id p hid⟩
  · show Function.update s.battleGrounds instanceId none 0 = none
    by_cases hid : 0 = instanceId
    · rw [← hid, Function.update_self]
    · rw [Function.update_of_ne hid, h.absent]

theorem sound_start : start.Sound := by
  constructor
  · exact sound_empty
  · intro p i hslot
    cases hslot
  · intro id p team hin
    cases hin
  · intro id bg hbg
    cases hbg
  · rfl

end Step

end BattleGroundState

section Run

/-- If the event invites a group, it reaches all its players, and the side has room for them. -/
def BattleGroundEvent.ReachesAll (s : BattleGroundState) : BattleGroundEvent → Prop
  | inviteGroupToBG bracket index ptr instanceId _ world =>
      ptr ∈ s.queue.queuedGroups bracket index →
        ∀ g, s.queue.groupInfos ptr = some g → g.Waits →
          ∀ bg, s.battleGrounds instanceId = some bg →
            (∀ p ∈ g.players, BattleGroundState.reaches world p) ∧
              (bg.invited g.groupTeam).toNat + g.players.length ≤ bg.maxPlayersPerTeam.toNat
  | _ => True

/-- One event keeps the invariant exactly when it reaches all whom it invites. -/
theorem sound_event_iff {s : BattleGroundState} (h : s.Sound) (event : BattleGroundEvent) :
    ((event.apply s).Tallied ↔ event.ReachesAll s) ∧
      ((event.apply s).Tallied → (event.apply s).Sound) := by
  have hkept : ∀ {s' : BattleGroundState}, s'.Sound → (s'.Tallied ↔ True) ∧ (s'.Tallied → s'.Sound) :=
    fun hs => ⟨iff_true_intro hs.tallied, fun _ => hs⟩
  cases event with
  | join leader grp req isPremade excludedMembers => exact hkept (h.join _ _ _ _ _)
  | create instanceId maxPlayersPerTeam => exact hkept (h.create _ _)
  | port guid req => exact hkept (h.handleBattleFieldPort _ _)
  | removeEvent guid instanceId removeTime => exact hkept (h.removeEvent _ _ _)
  | purge guid now => exact hkept (h.purge _ _)
  | giveLevel guid => exact hkept (h.giveLevel _)
  | removePlayerAtLeave instanceId guid => exact hkept (h.removePlayerAtLeave _ _)
  | logoutPlayer guid now => exact hkept (h.logoutPlayer _ _)
  | playerLoggedIn guid => exact hkept (h.playerLoggedIn _)
  | enterOther guid instanceId => exact hkept (h.enterOther _ _)
  | setStatus instanceId status => exact hkept (h.setStatus _ _)
  | delete instanceId => exact hkept (h.delete _)
  | inviteGroupToBG bracket index ptr instanceId now world =>
      rcases BattleGroundState.inviteGroupToBG_cases s bracket index ptr instanceId now world with
        ⟨hsame, hnone⟩ | ⟨g, bg, hstored, hg, hwaits, hbg, hinvited⟩
      · show ((s.inviteGroupToBG bracket index ptr instanceId now world).Tallied ↔ _) ∧
          ((s.inviteGroupToBG bracket index ptr instanceId now world).Tallied →
            (s.inviteGroupToBG bracket index ptr instanceId now world).Sound)
        rw [hsame]
        refine ⟨⟨fun _ hstored g hg hwaits bg hbg => ?_, fun _ => h.tallied⟩, fun _ => h⟩
        exact absurd ⟨g, bg, hstored, hg, hwaits, hbg⟩ hnone
      · show ((s.inviteGroupToBG bracket index ptr instanceId now world).Tallied ↔ _) ∧
          ((s.inviteGroupToBG bracket index ptr instanceId now world).Tallied →
            (s.inviteGroupToBG bracket index ptr instanceId now world).Sound)
        rw [hinvited]
        have hiff := BattleGroundState.tallied_invited_iff world now h hstored hg hwaits hbg
        rw [← (h.tallied instanceId bg hbg g.groupTeam).1] at hiff
        refine ⟨hiff.trans ⟨fun hreach _ g' hg' _ bg' hbg' => ?_,
          fun hreach => hreach hstored g hg hwaits bg hbg⟩,
          BattleGroundState.Sound.invited world now h hstored hg hwaits hbg⟩
        obtain rfl := Option.some.inj (hg.symm.trans hg')
        obtain rfl := Option.some.inj (hbg.symm.trans hbg')
        exact hreach

/-- The same along a run. -/
theorem sound_events_iff {s : BattleGroundState} (h : s.Sound) (events : List BattleGroundEvent) :
    (∀ n, (Lib.run BattleGroundEvent.apply s (events.take n)).Tallied) ↔
      Lib.Along (fun s event => BattleGroundEvent.ReachesAll s event) BattleGroundEvent.apply s
        events := by
  induction events generalizing s with
  | nil => simpa using h.tallied
  | cons event rest ih =>
      obtain ⟨hiff, hsound⟩ := sound_event_iff h event
      constructor
      · intro hall
        have hfirst : (event.apply s).Tallied := hall 1
        exact ⟨hiff.mp hfirst, (ih (hsound hfirst)).mp fun n => hall (n + 1)⟩
      · rintro ⟨hreach, hrest⟩ n
        have hfirst := hiff.mpr hreach
        cases n with
        | zero => exact h.tallied
        | succ n => exact (ih (hsound hfirst)).mpr hrest n

/-- In every state of a run `GetInvitedCount` is the number of players of the side who are in the
battleground or invited to it, and at most `MaxPlayersPerTeam`, exactly when each group is invited
while all its players can be reached and the side has room for them. -/
theorem invitedCount_iff (events : List BattleGroundEvent) :
    (∀ n, (runBattleGrounds (events.take n)).Tallied) ↔
      Lib.Along (fun s event => BattleGroundEvent.ReachesAll s event) BattleGroundEvent.apply .start
        events :=
  sound_events_iff BattleGroundState.sound_start events

/-- A player queues and logs out, his group is invited, and he is purged from the queue. -/
def invitedOffline (bracket : BattleGroundBracketId) : List BattleGroundEvent :=
  [.join ⟨1, .horde⟩ none ⟨2, bracket, 0, 0, 40⟩ false [], .create 7 10, .logoutPlayer 1 5,
    .inviteGroupToBG bracket (.normal .horde) 0 7 10 fun _ => none, .purge 1 90000]

/-- The group can be selected: nobody of it is in the world. -/
example : SelectionPool.Takes (runBattleGrounds ((invitedOffline 3).take 3)).queue.groupInfos
    (fun _ => none) 0 0 10 0 := by
  decide

/-- His invitation has not been counted, but his removal is: the counter wraps. -/
theorem invitedCount_wraps : ¬∀ events, (runBattleGrounds events).Tallied := by
  intro h
  have hwrapped : ((runBattleGrounds (invitedOffline 3)).battleGrounds 7).map (·.invited .horde) =
      some 4294967295 := by decide
  have hnobody : (runBattleGrounds (invitedOffline 3)).accounted 7 .horde = ∅ := by decide
  obtain ⟨bg, hbg, hcount⟩ := Option.map_eq_some_iff.mp hwrapped
  obtain ⟨hsame, -⟩ := h (invitedOffline 3) 7 bg hbg .horde
  rw [hcount, hnobody] at hsame
  cases hsame

end Run

end TwowCore.Battlegrounds
