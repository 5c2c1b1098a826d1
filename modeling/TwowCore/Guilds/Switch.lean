import TwowCore.Guilds.Registry

/-!
# Switching guilds

`ApplyGuildSwitch` takes a member out of a guild and into another one, or lets him sign a charter. Leaving
cannot be undone, so everything that could refuse him afterwards is asked before. `apply_all_or_nothing`
says that this is enough: after he has left nothing refuses him.
-/

namespace TwowCore.Guilds.Membership

/-- Why a switch does not happen. -/
inductive SwitchReason where
  | offline
  | notInGuild
  | guildMaster
  | noPetition
  | petitionClosed
  | faction
  | inviteGone
  | joinFailed
  | signFailed
  deriving DecidableEq, Repr

/-- `reason`. -/
def SwitchReason.text : SwitchReason → String
  | .offline => "offline"
  | .notInGuild => "not_in_guild"
  | .guildMaster => "guild_master"
  | .noPetition => "no_petition"
  | .petitionClosed => "petition_closed"
  | .faction => "faction"
  | .inviteGone => "invite_gone"
  | .joinFailed => "join_failed"
  | .signFailed => "sign_failed"

/-- `GUILD_EVENT_LOG_LEAVE_GUILD` and `GUILD_EVENT_LOG_JOIN_GUILD`. -/
inductive GuildEventLog where
  | leaveGuild
  | joinGuild
  deriving DecidableEq, Repr

/-- The teams of the characters and of the petitions, and
`CONFIG_BOOL_ALLOW_TWO_SIDE_INTERACTION_GUILD`. -/
structure Teams where
  twoSide : Bool
  ofPlayer : ℕ → Bool
  ofPetition : ℕ → Bool

/-- The manager and the logs of the guilds. -/
structure LoggedMgr where
  mgr : GuildMgr
  log : List (ℕ × GuildEventLog × ℕ)

namespace GuildMgr

/-- `AddPetitionSignature`, with what it returns. -/
def signPetition (s : GuildMgr) (id guid : ℕ) : GuildMgr × Bool :=
  match s.getPetitionById id with
  | none => (s, false)
  | some petition =>
      if petition.signatures.length ≥ s.getPetitionSignsRequired ∨
          petition.signedByAccount (s.account guid) ∨ petition.signedBy guid then (s, false)
      else
        let moved := removeSignature guid s.petitions
        -- `AddNewSignature`
        if petition.signatures.length = s.minPetitionSigns then ({ s with petitions := moved }, false)
        else
          ({ s with
            petitions := Lib.writeKey Petition.id id (fun p =>
              { p with signatures := p.signatures ++ [⟨guid, s.account guid⟩] }) moved }, true)

end GuildMgr

/-- Leaving the old guild, with the entry in its log. The log of a guild that is disbanded is deleted. -/
def LoggedMgr.leave (w : LoggedMgr) (old : Roster) (member : ℕ) (best : Option ℕ) : LoggedMgr :=
  if (w.mgr.delMember old member best).2 then
    ⟨w.mgr.delMemberOrDisband old member best, w.log.filter fun entry => entry.1 ≠ old.id⟩
  else
    ⟨w.mgr.delMemberOrDisband old member best, w.log ++ [(old.id, .leaveGuild, member)]⟩

/-- `ApplyGuildSwitch`. No reason is `true`. -/
def LoggedMgr.applySwitch (teams : Teams) (w : LoggedMgr)
    (member fromGuildId toGuildId petitionId : ℕ) (best : Option ℕ) :
    LoggedMgr × Option SwitchReason :=
  match w.mgr.findPlayer member with
  | none => (w, some .offline)
  | some p =>
      if !p.inWorld then (w, some .offline)
      else
        let dropped : LoggedMgr := { w with mgr := w.mgr.dropInvite p toGuildId }
        match w.mgr.getGuildById fromGuildId with
        | none => (dropped, some .notInGuild)
        | some old =>
            if p.guildId ≠ fromGuildId then (dropped, some .notInGuild)
            else if old.leaderGuid = member then (dropped, some .guildMaster)
            else if petitionId ≠ 0 then
              match w.mgr.getPetitionById petitionId with
              | none => (w, some .noPetition)
              | some petition =>
                  if petition.signatures.length ≥ w.mgr.getPetitionSignsRequired ∨
                      petition.ownerGuid = member ∨
                      petition.signedByAccount (w.mgr.account member) ∨
                      petition.signedBy member ∨ p.guildIdInvited ≠ 0 then (w, some .petitionClosed)
                  else if !teams.twoSide ∧ teams.ofPlayer member ≠ teams.ofPetition petitionId then
                    (w, some .faction)
                  else
                    let left := w.leave old member best
                    let signed := left.mgr.signPetition petitionId member
                    ({ left with mgr := signed.1 }, if signed.2 then none else some .signFailed)
            else
              match w.mgr.getGuildById toGuildId with
              | none => (dropped, some .inviteGone)
              | some new =>
                  if new.id = old.id ∨ p.guildIdInvited ≠ toGuildId then (dropped, some .inviteGone)
                  else if !teams.twoSide ∧ teams.ofPlayer member ≠ teams.ofPlayer new.leaderGuid then
                    (dropped, some .faction)
                  else
                    let left := w.leave old member best
                    let joined := left.mgr.addMember new member
                    if joined.2 then
                      (⟨joined.1, left.log ++ [(new.id, .joinGuild, member)]⟩, none)
                    else ({ left with mgr := joined.1.dropInvite p toGuildId }, some .joinFailed)

namespace GuildMgr

variable {s : GuildMgr} {id guid : ℕ} {g : Roster}

/-- What it returns apart, it is `AddPetitionSignature`. -/
theorem signPetition_fst : (s.signPetition id guid).1 = s.addPetitionSignature id guid := by
  unfold signPetition addPetitionSignature
  cases s.getPetitionById id with
  | none => rfl
  | some petition =>
      simp only
      split_ifs <;> rfl

/-- A signature that is refused changes nothing: a petition that is not full for the first check is not
full for the second one. -/
theorem signPetition_false (h : (s.signPetition id guid).2 = false) : (s.signPetition id guid).1 = s := by
  unfold signPetition at h ⊢
  cases hfind : s.getPetitionById id with
  | none => rfl
  | some petition =>
      rw [hfind] at h
      simp only at h ⊢
      by_cases hguard : petition.signatures.length ≥ s.getPetitionSignsRequired ∨
          petition.signedByAccount (s.account guid) ∨ petition.signedBy guid
      · rw [if_pos hguard]
      · have hshort : petition.signatures.length ≠ s.minPetitionSigns := by
          have hless := (not_or.mp hguard).1
          unfold getPetitionSignsRequired at hless
          omega
        rw [if_neg hguard, if_neg hshort] at h
        cases h

/-- What leaving a guild does not touch. -/
structure KeepsPetitions (s s' : GuildMgr) : Prop where
  petitions : s'.petitions = s.petitions
  account : s'.account = s.account
  minPetitionSigns : s'.minPetitionSigns = s.minPetitionSigns

theorem keepsPetitions_foldl (id : ℕ) (members : List ℕ) (s : GuildMgr) :
    KeepsPetitions s (members.foldl (fun s guid => s.eraseMember id guid) s) := by
  induction members generalizing s with
  | nil => exact ⟨rfl, rfl, rfl⟩
  | cons guid members ih =>
      obtain ⟨hpetitions, haccount, hsigns⟩ := ih (s.eraseMember id guid)
      exact ⟨hpetitions, haccount, hsigns⟩

theorem keepsPetitions_delMember (best : Option ℕ) : KeepsPetitions s (s.delMember g guid best).1 := by
  unfold delMember
  split
  · cases best with
    | none => exact ⟨rfl, rfl, rfl⟩
    | some leader => exact ⟨rfl, rfl, rfl⟩
  · exact ⟨rfl, rfl, rfl⟩

theorem keepsPetitions_delMemberOrDisband (best : Option ℕ) :
    KeepsPetitions s (s.delMemberOrDisband g guid best) := by
  have hdel : KeepsPetitions s (s.delMember g guid best).1 := keepsPetitions_delMember best
  unfold delMemberOrDisband
  split
  · next s' hs' => rwa [hs'] at hdel
  · next s' hs' =>
    rw [hs'] at hdel
    split
    · exact hdel
    · next g' hg' =>
      have hfold := keepsPetitions_foldl g'.id g'.members s'
      exact ⟨hfold.petitions.trans hdel.petitions, hfold.account.trans hdel.account,
        hfold.minPetitionSigns.trans hdel.minPetitionSigns⟩

/-- Who may sign before leaving may sign after it. -/
theorem signPetition_of_free {petition : Petition} (hfind : s.getPetitionById id = some petition)
    (hguard : ¬ (petition.signatures.length ≥ s.getPetitionSignsRequired ∨
      petition.signedByAccount (s.account guid) ∨ petition.signedBy guid)) :
    s.signPetition id guid =
      ({ s with
        petitions := Lib.writeKey Petition.id id (addNewSignature ⟨guid, s.account guid⟩)
          (removeSignature guid s.petitions) }, true) := by
  have hshort : petition.signatures.length ≠ s.minPetitionSigns := by
    have hless := (not_or.mp hguard).1
    unfold getPetitionSignsRequired at hless
    omega
  unfold signPetition
  rw [hfind]
  simp only
  rw [if_neg hguard, if_neg hshort]
  rfl

/-- Nobody else's player is touched, and who is in the world hears of it. -/
theorem findPlayer_eraseMember (other : ℕ) :
    (s.eraseMember id guid).findPlayer other =
      if other = guid then
        (s.findPlayer other).map fun p => if p.inWorld then { p with guildId := 0 } else p
      else s.findPlayer other := by
  refine Lib.find_writeKey (fun p => ?_) other
  split_ifs <;> rfl

/-- A player without a guild stays without one. -/
theorem findPlayer_foldl {members : List ℕ} {s : GuildMgr} {p : Player}
    (hp : s.findPlayer guid = some p) (hnone : p.guildId = 0) :
    ∃ p', (members.foldl (fun s guid => s.eraseMember id guid) s).findPlayer guid = some p' ∧
      p'.guildId = 0 := by
  induction members generalizing s p with
  | nil => exact ⟨p, hp, hnone⟩
  | cons other rest ih =>
      by_cases hother : guid = other
      · have hfound : (s.eraseMember id other).findPlayer guid =
            some (if p.inWorld then { p with guildId := 0 } else p) := by
          rw [findPlayer_eraseMember, if_pos hother, hp, Option.map_some]
        refine ih hfound ?_
        split_ifs
        · rfl
        · exact hnone
      · have hfound : (s.eraseMember id other).findPlayer guid = some p := by
          rw [findPlayer_eraseMember, if_neg hother, hp]
        exact ih hfound hnone

/-- The player who leaves in the world has no guild afterwards. -/
theorem findPlayer_left {p : Player} (hp : s.findPlayer guid = some p) (hworld : p.inWorld = true)
    (hleader : g.leaderGuid ≠ guid) (best : Option ℕ) :
    ∃ p', (s.delMemberOrDisband g guid best).findPlayer guid = some p' ∧ p'.guildId = 0 := by
  have hdel : (s.delMember g guid best).1.findPlayer guid = some { p with guildId := 0 } := by
    unfold delMember
    rw [if_neg hleader]
    show (s.eraseMember g.id guid).findPlayer guid = _
    rw [findPlayer_eraseMember, if_pos rfl, hp, Option.map_some, if_pos hworld]
  unfold delMemberOrDisband
  split
  · next s' hs' =>
    rw [hs'] at hdel
    exact ⟨_, hdel, rfl⟩
  · next s' hs' =>
    rw [hs'] at hdel
    split
    · exact ⟨_, hdel, rfl⟩
    · exact findPlayer_foldl hdel rfl

/-- Who is online without a guild is taken in. -/
theorem addMember_of_free {p : Player} (hp : s.findPlayer guid = some p) (hnone : p.guildId = 0) :
    s.addMember g guid = ((s.removePetitionSignature guid).join g.id guid, true) := by
  unfold addMember
  rw [hp]
  exact if_neg (not_not.mpr hnone)

end GuildMgr

namespace LoggedMgr

variable {teams : Teams} {w : LoggedMgr} {member fromGuildId toGuildId petitionId : ℕ}
  {best : Option ℕ}

/-- The member of a guild who may go to another one, or sign a petition. -/
structure MayLeave (s : GuildMgr) (member fromGuildId : ℕ) (p : Player) (old : Roster) : Prop where
  player : s.findPlayer member = some p
  world : p.inWorld = true
  guild : s.getGuildById fromGuildId = some old
  guildId : p.guildId = fromGuildId
  leader : old.leaderGuid ≠ member

/-- Leaving a guild touches the log and nothing else of the manager than `delMemberOrDisband` does. -/
theorem leave_mgr (w : LoggedMgr) (old : Roster) (member : ℕ) (best : Option ℕ) :
    (w.leave old member best).mgr = w.mgr.delMemberOrDisband old member best := by
  unfold leave
  split <;> rfl

/-- Who may sign before leaving may sign after it. -/
theorem signPetition_left {id : ℕ} {petition : Petition}
    (hfind : w.mgr.getPetitionById id = some petition)
    (hguard : ¬ (petition.signatures.length ≥ w.mgr.getPetitionSignsRequired ∨
      petition.signedByAccount (w.mgr.account member) ∨ petition.signedBy member))
    (old : Roster) (best : Option ℕ) :
    (w.leave old member best).mgr.signPetition id member =
      ({ (w.leave old member best).mgr with
        petitions := Lib.writeKey Petition.id id (addNewSignature ⟨member, w.mgr.account member⟩)
          (removeSignature member w.mgr.petitions) }, true) := by
  rw [leave_mgr]
  have hkept : GuildMgr.KeepsPetitions w.mgr (w.mgr.delMemberOrDisband old member best) :=
    GuildMgr.keepsPetitions_delMemberOrDisband best
  have hfind' : (w.mgr.delMemberOrDisband old member best).getPetitionById id = some petition := by
    unfold GuildMgr.getPetitionById
    rw [hkept.petitions]
    exact hfind
  have hguard' : ¬ (petition.signatures.length ≥
        (w.mgr.delMemberOrDisband old member best).getPetitionSignsRequired ∨
      petition.signedByAccount ((w.mgr.delMemberOrDisband old member best).account member) ∨
      petition.signedBy member) := by
    unfold GuildMgr.getPetitionSignsRequired
    rw [hkept.account, hkept.minPetitionSigns]
    exact hguard
  rw [GuildMgr.signPetition_of_free hfind' hguard', ← hkept.account, ← hkept.petitions]

/-- The switch refuses before the member leaves, or it does not refuse. -/
theorem applySwitch_cases (teams : Teams) (w : LoggedMgr)
    (member fromGuildId toGuildId petitionId : ℕ) (best : Option ℕ) :
    (∃ reason, w.applySwitch teams member fromGuildId toGuildId petitionId best = (w, some reason)) ∨
    (∃ p reason, w.mgr.findPlayer member = some p ∧
      w.applySwitch teams member fromGuildId toGuildId petitionId best =
        ({ w with mgr := w.mgr.dropInvite p toGuildId }, some reason)) ∨
    ∃ p old, MayLeave w.mgr member fromGuildId p old ∧
      ((petitionId ≠ 0 ∧ ∃ petition, w.mgr.getPetitionById petitionId = some petition ∧
        ¬ (petition.signatures.length ≥ w.mgr.getPetitionSignsRequired ∨
          petition.signedByAccount (w.mgr.account member) ∨ petition.signedBy member) ∧
        w.applySwitch teams member fromGuildId toGuildId petitionId best =
          ({ w.leave old member best with
            mgr := ((w.leave old member best).mgr.signPetition petitionId member).1 }, none)) ∨
      (petitionId = 0 ∧ ∃ new, w.mgr.getGuildById toGuildId = some new ∧ new.id ≠ old.id ∧
        w.applySwitch teams member fromGuildId toGuildId petitionId best =
          (⟨((w.leave old member best).mgr.removePetitionSignature member).join new.id member,
            (w.leave old member best).log ++ [(new.id, .joinGuild, member)]⟩, none))) := by
  unfold applySwitch
  cases hp : w.mgr.findPlayer member with
  | none => exact Or.inl ⟨_, rfl⟩
  | some p =>
      simp only
      by_cases hworld : p.inWorld = true
      case neg =>
        rw [if_pos (by simpa using hworld)]
        exact Or.inl ⟨_, rfl⟩
      rw [if_neg (by simpa using hworld)]
      cases hold : w.mgr.getGuildById fromGuildId with
      | none => exact Or.inr (Or.inl ⟨p, _, rfl, rfl⟩)
      | some old =>
          simp only
          by_cases hfrom : p.guildId ≠ fromGuildId
          · rw [if_pos hfrom]
            exact Or.inr (Or.inl ⟨p, _, rfl, rfl⟩)
          rw [if_neg hfrom]
          by_cases hleader : old.leaderGuid = member
          · rw [if_pos hleader]
            exact Or.inr (Or.inl ⟨p, _, rfl, rfl⟩)
          rw [if_neg hleader]
          have hmay : MayLeave w.mgr member fromGuildId p old :=
            ⟨hp, hworld, hold, not_not.mp hfrom, hleader⟩
          have hleft := GuildMgr.findPlayer_left hp hworld hleader best
          rw [← leave_mgr] at hleft
          obtain ⟨p', hp', hnone⟩ := hleft
          by_cases hpetition : petitionId ≠ 0
          · rw [if_pos hpetition]
            cases hfind : w.mgr.getPetitionById petitionId with
            | none => exact Or.inl ⟨_, rfl⟩
            | some petition =>
                simp only
                by_cases hclosed : petition.signatures.length ≥ w.mgr.getPetitionSignsRequired ∨
                    petition.ownerGuid = member ∨
                    petition.signedByAccount (w.mgr.account member) ∨
                    petition.signedBy member ∨ p.guildIdInvited ≠ 0
                · rw [if_pos hclosed]
                  exact Or.inl ⟨_, rfl⟩
                rw [if_neg hclosed]
                by_cases hteam : !teams.twoSide ∧
                    teams.ofPlayer member ≠ teams.ofPetition petitionId
                · rw [if_pos hteam]
                  exact Or.inl ⟨_, rfl⟩
                rw [if_neg hteam]
                -- the three questions that are asked again under the lock
                have hguard : ¬ (petition.signatures.length ≥ w.mgr.getPetitionSignsRequired ∨
                    petition.signedByAccount (w.mgr.account member) ∨ petition.signedBy member) := by
                  tauto
                have hsigned : ((w.leave old member best).mgr.signPetition petitionId member).2 =
                    true := by
                  rw [signPetition_left hfind hguard old best]
                rw [if_pos hsigned]
                exact Or.inr (Or.inr ⟨p, old, hmay, Or.inl ⟨hpetition, petition, rfl, hguard, rfl⟩⟩)
          · rw [if_neg hpetition]
            cases hnew : w.mgr.getGuildById toGuildId with
            | none => exact Or.inr (Or.inl ⟨p, _, rfl, rfl⟩)
            | some new =>
                simp only
                by_cases hgone : new.id = old.id ∨ p.guildIdInvited ≠ toGuildId
                · rw [if_pos hgone]
                  exact Or.inr (Or.inl ⟨p, _, rfl, rfl⟩)
                rw [if_neg hgone]
                by_cases hteam : !teams.twoSide ∧
                    teams.ofPlayer member ≠ teams.ofPlayer new.leaderGuid
                · rw [if_pos hteam]
                  exact Or.inr (Or.inl ⟨p, _, rfl, rfl⟩)
                rw [if_neg hteam, GuildMgr.addMember_of_free hp' hnone]
                exact Or.inr (Or.inr ⟨p, old, hmay, Or.inr ⟨not_not.mp hpetition, new, rfl,
                  fun hsame => hgone (Or.inl hsame), rfl⟩⟩)

/-- What a switch that does not happen leaves as it was: everything, but for the open invitation of the
member to the target, which may be dropped. -/
structure Unswitched (w w' : LoggedMgr) (member toGuildId : ℕ) : Prop where
  log : w'.log = w.log
  mgr : w'.mgr = w.mgr ∨
    ∃ p, w.mgr.findPlayer member = some p ∧ p.guildIdInvited = toGuildId ∧
      w'.mgr = w.mgr.writePlayer member fun p => { p with guildIdInvited := 0 }

/-- The invitation is dropped. -/
theorem unswitched_dropInvite {p : Player} (hp : w.mgr.findPlayer member = some p) (toGuildId : ℕ) :
    Unswitched w { w with mgr := w.mgr.dropInvite p toGuildId } member toGuildId := by
  have hguid := (GuildMgr.findPlayer_some hp).2
  refine ⟨rfl, ?_⟩
  show w.mgr.dropInvite p toGuildId = w.mgr ∨ ∃ p', _ ∧ _ ∧ w.mgr.dropInvite p toGuildId = _
  unfold GuildMgr.dropInvite
  split
  · next hinvited => exact Or.inr ⟨p, hp, hinvited.2, by rw [hguid]⟩
  · exact Or.inl rfl

/-- What holds when a member has left. -/
structure Left (s s' : GuildMgr) (member fromGuildId : ℕ) : Prop where
  registered : Registered s'
  none : s'.guid2guild member = none
  others : ∀ id, id ≠ fromGuildId → (∃ g ∈ s.guilds, g.id = id) → ∃ g ∈ s'.guilds, g.id = id
  online : ∃ p, s'.findPlayer member = some p

/-- Leaving keeps the invariant. -/
theorem left_of_mayLeave {p : Player} {old : Roster} (h : Registered w.mgr)
    (hmay : MayLeave w.mgr member fromGuildId p old) (best : Option ℕ) :
    Left w.mgr (w.leave old member best).mgr member fromGuildId := by
  obtain ⟨hmem, hguid⟩ := GuildMgr.findPlayer_some hmay.player
  have hid : old.id = fromGuildId := (GuildMgr.getGuildById_some hmay.guild).2
  have hdeparted : GuildMgr.Departed old.id w.mgr (w.mgr.delMemberOrDisband old member best) :=
    GuildMgr.departed_delMemberOrDisband best
  obtain ⟨p', hp', -⟩ := GuildMgr.findPlayer_left hmay.player hmay.world hmay.leader best
  rw [leave_mgr]
  refine ⟨h.delMemberOrDisband (fun id' hid' => ?_) best,
    GuildMgr.guid2guild_delMemberOrDisband hmay.leader best, ?_, p', hp'⟩
  · rw [hid, ← hmay.guildId]
    exact h.index_eq hmem (hguid.symm ▸ hid')
  · rw [← hid]
    exact hdeparted.others

/-- The member is in the guild he goes to and in no other. -/
theorem memberOf_joined {s s' : GuildMgr} {new : Roster} (h : Left s s' member fromGuildId)
    (hnew : s.getGuildById toGuildId = some new) (hne : new.id ≠ fromGuildId) (id : ℕ) :
    ((s'.removePetitionSignature member).join new.id member).MemberOf id member ↔
      id = toGuildId := by
  obtain ⟨hmem, hid⟩ := GuildMgr.getGuildById_some hnew
  have hexists : ∃ g ∈ (s'.removePetitionSignature member).guilds, g.id = new.id :=
    h.others new.id hne ⟨new, hmem, rfl⟩
  rw [GuildMgr.memberOf_join hexists, hid]
  constructor
  · rintro (hold | ⟨hsame, -⟩)
    · have hindex : s'.guid2guild member = some id := (h.registered.index member id).mpr hold
      rw [h.none] at hindex
      cases hindex
    · exact hsame
  · intro hsame
    exact Or.inr ⟨hsame, rfl⟩

/-- The member has one signature, and it is on the petition he signs. -/
theorem signers_signed {petition : Petition} (h : Registered w.mgr)
    (hfind : w.mgr.getPetitionById petitionId = some petition) (signature : Signature) :
    let signed := Lib.writeKey Petition.id petitionId (addNewSignature signature)
      (removeSignature signature.player w.mgr.petitions)
    (signers signed).count signature.player = 1 ∧
      ∃ p ∈ signed, p.id = petitionId ∧ p.signedBy signature.player = true := by
  obtain ⟨hmem, rfl⟩ := GuildMgr.getPetitionById_some hfind
  have hid : petition.id ∈ (removeSignature signature.player w.mgr.petitions).map Petition.id := by
    rw [removeSignature_ids]
    exact List.mem_map_of_mem hmem
  obtain ⟨moved, hmoved, hmid⟩ := List.mem_map.mp hid
  have hids := (h.signed.remove signature.player).ids
  have hperm := signers_add hids hmoved signature
  rw [hmid] at hperm
  refine ⟨?_, addNewSignature signature moved, ?_, hmid, ?_⟩
  · rw [hperm.count_eq, List.count_cons_self,
      List.count_eq_zero_of_not_mem (h.signed.removed signature.player)]
  · refine Lib.mem_writeKey.mpr ⟨moved, hmoved, ?_⟩
    rw [if_pos hmid]
  · rw [signedBy_iff]
    show signature.player ∈ (moved.signatures ++ [signature]).map Signature.player
    rw [List.map_append]
    exact List.mem_append_right _ (List.mem_singleton_self _)

/-- A switch is all or nothing. When it is refused, the guilds, the logs and the signatures are as they
were, and so are the players, except that the invitation to the target may be gone. When it is not, the member is in the guild he goes to and in no other, or he is in no guild and has
one signature, on the petition he goes to. -/
def AllOrNothing (w : LoggedMgr) (member fromGuildId toGuildId petitionId : ℕ) :
    LoggedMgr × Option SwitchReason → Prop
  | (w', some _) => Unswitched w w' member toGuildId
  | (w', none) =>
      (petitionId = 0 → fromGuildId ≠ toGuildId ∧
        ∀ id, w'.mgr.MemberOf id member ↔ id = toGuildId) ∧
      (petitionId ≠ 0 → (∀ id, ¬w'.mgr.MemberOf id member) ∧
        (signers w'.mgr.petitions).count member = 1 ∧
        ∃ p ∈ w'.mgr.petitions, p.id = petitionId ∧ p.signedBy member = true)

/-- A switch is all or nothing, and so is a signature. -/
theorem apply_all_or_nothing (teams : Teams) {w : LoggedMgr} (h : Registered w.mgr)
    (member fromGuildId toGuildId petitionId : ℕ) (best : Option ℕ) :
    AllOrNothing w member fromGuildId toGuildId petitionId
      (w.applySwitch teams member fromGuildId toGuildId petitionId best) ∧
    ∀ id guid, (w.mgr.signPetition id guid).2 = false → (w.mgr.signPetition id guid).1 = w.mgr := by
  refine ⟨?_, fun id guid => GuildMgr.signPetition_false⟩
  rcases applySwitch_cases teams w member fromGuildId toGuildId petitionId best with
    ⟨reason, hresult⟩ | ⟨p, reason, hp, hresult⟩ | ⟨p, old, hmay, hswitch⟩
  · rw [hresult]
    exact ⟨rfl, Or.inl rfl⟩
  · rw [hresult]
    exact unswitched_dropInvite hp toGuildId
  · have hleft := left_of_mayLeave h hmay best
    have hold : old.id = fromGuildId := (GuildMgr.getGuildById_some hmay.guild).2
    rcases hswitch with ⟨hpetition, petition, hfind, hguard, hresult⟩ | ⟨hpetition, new, hnew, hne, hresult⟩
    · rw [hresult, signPetition_left hfind hguard old best]
      refine ⟨fun hzero => absurd hzero hpetition, fun _ => ⟨fun id hmember => ?_, ?_⟩⟩
      · -- the members are those after leaving
        have hindex := (hleft.registered.index member id).mpr hmember
        rw [hleft.none] at hindex
        cases hindex
      · exact signers_signed h hfind ⟨member, w.mgr.account member⟩
    · rw [hresult]
      rw [hold] at hne
      refine ⟨fun _ => ⟨?_, memberOf_joined hleft hnew hne⟩, fun hnot => absurd hpetition hnot⟩
      rw [← (GuildMgr.getGuildById_some hnew).2]
      exact hne.symm

/-- Two guilds, and a member of the first one whom the second one has invited. -/
def invitedEvents : List Event :=
  [.loginQuery 1, .login 1, .loginQuery 2, .login 2, .loginQuery 3, .login 3,
    .request 1 (.guildCreate [1]), .request 2 (.guildCreate [2]), .request 1 (.invite 3),
    .request 3 .accept, .request 2 (.invite 3)]

/-- The manager after these events, and no log yet. -/
def invited : LoggedMgr := ⟨afterEvents id (fun _ => true) 1 invitedEvents, []⟩

/-- The member goes to the second guild. -/
theorem apply_all_or_nothing_invited :
    (invited.applySwitch ⟨true, fun _ => true, fun _ => true⟩ 3 1 2 0 none).2 = none ∧
      AllOrNothing invited 3 1 2 0
        (invited.applySwitch ⟨true, fun _ => true, fun _ => true⟩ 3 1 2 0 none) := by
  refine ⟨by decide +kernel, (apply_all_or_nothing _ ?_ 3 1 2 0 none).1⟩
  exact run_registered id (fun _ => true) 1
    ⟨nofun, trivial, nofun, trivial, nofun, trivial, trivial, trivial, trivial, trivial, trivial,
      trivial⟩

end LoggedMgr

end TwowCore.Guilds.Membership
