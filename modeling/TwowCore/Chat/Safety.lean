import TwowCore.Chat.Channel

/-!
# Owners, bans and privileges of a channel

`Inv` is what holds of a channel after any requests: no member but the owner has the flag of the owner, a
member is on the channel under the own guid, no banned player is a member, and exactly the members have the
channel in their list. There is one exception: an owner who kicks or bans himself while others are on the
channel is entered again by `SetOwner`, whose `operator[]` makes an entry that names nobody. He has left by
his own list then, and stays on the channel when he logs out. In a run without such a request the strict
invariant holds.

`run_unprivileged` is about the other side: players who are neither moderator nor owner nor of the staff
change nothing but their own membership, whatever they send and in whatever order, unless they are all that
is left on a channel and it is deleted when the last of them goes.
-/

namespace TwowCore.Chat

open TwowCore.Lib

namespace Channel

/-- What holds of a channel after any requests; where it is strict, no entry names nobody. -/
structure Inv (strict : Prop) (c : Channel) : Prop where
  sorted : KeysSorted c.players
  nonzero : c.isOn 0 = false
  named : ∀ guid info, entryOf guid c.players = some info → info.player = guid ∨ info.player = 0 ∧ ¬strict
  owner : ∀ guid info, entryOf guid c.players = some info → info.isOwner = true → guid = c.ownerGuid
  banned : ∀ guid info, entryOf guid c.players = some info → guid ∈ c.banned → info.player = 0
  listed : ∀ guid, guid ∈ c.listed ↔ ∃ info, entryOf guid c.players = some info ∧ info.player = guid
  nodup : c.listed.Nodup

section Changes

variable {strict : Prop} {c : Channel} {users : Users} {guid : ObjectGuid}

theorem isOn_iff : c.isOn guid = true ↔ ∃ info, entryOf guid c.players = some info := by
  rw [isOn, Option.isSome_iff_exists]

theorem isOn_eq_false : c.isOn guid = false ↔ entryOf guid c.players = none := by
  rw [isOn, Option.isSome_eq_false_iff, Option.isNone_iff_eq_none]

theorem Inv.ne_zero (h : c.Inv strict) (hon : c.isOn guid = true) : guid ≠ 0 := by
  rintro rfl
  rw [h.nonzero] at hon
  cases hon

/-- Who has the channel in the list is on it. -/
theorem Inv.isOn_of_listed (h : c.Inv strict) (hmem : guid ∈ c.listed) : c.isOn guid = true := by
  obtain ⟨info, hinfo, -⟩ := (h.listed guid).mp hmem
  exact isOn_iff.mpr ⟨info, hinfo⟩

/-- Looking up after an entry is changed. -/
theorem entryOf_modify (f : PlayerInfo → PlayerInfo) (other : ObjectGuid) :
    entryOf other (c.modify guid f).players =
      if other = guid then some (f ((entryOf guid c.players).getD ⟨0, 0⟩)) else entryOf other c.players :=
  entryOf_setEntry other

theorem isOn_modify (f : PlayerInfo → PlayerInfo) {other : ObjectGuid} (hon : c.isOn other = true) :
    (c.modify guid f).isOn other = true := by
  rw [isOn, entryOf_modify]
  split_ifs
  · rfl
  · exact hon

/-- A change that keeps the name, and gives the flag of the owner to the owner only. Where there is no entry it
makes one that names nobody. -/
theorem Inv.modify (h : c.Inv strict) (hne : guid ≠ 0) (hon : strict → c.isOn guid = true)
    {f : PlayerInfo → PlayerInfo} (hname : ∀ info, (f info).player = info.player)
    (howner : ∀ info, (f info).isOwner = true → info.isOwner = true ∨ guid = c.ownerGuid) :
    (c.modify guid f).Inv strict := by
  -- what is found is the changed entry, or was found before
  have hcases : ∀ other found, entryOf other (c.modify guid f).players = some found →
      (other = guid ∧ found = f ((entryOf guid c.players).getD ⟨0, 0⟩)) ∨
        entryOf other c.players = some found := by
    intro other found hfound
    rw [entryOf_modify] at hfound
    split_ifs at hfound with heq
    · exact Or.inl ⟨heq, (Option.some.inj hfound).symm⟩
    · exact Or.inr hfound
  constructor
  · exact h.sorted.setEntry
  · rw [isOn_eq_false, entryOf_modify, if_neg (Ne.symm hne)]
    exact isOn_eq_false.mp h.nonzero
  · intro other found hfound
    rcases hcases other found hfound with ⟨rfl, rfl⟩ | hold
    · rw [hname]
      cases hinfo : entryOf other c.players with
      | none =>
          refine Or.inr ⟨rfl, fun hstrict => ?_⟩
          have hentry := hon hstrict
          rw [isOn_eq_false.mpr hinfo] at hentry
          cases hentry
      | some info => exact h.named other info hinfo
    · exact h.named other found hold
  · intro other found hfound hflag
    rcases hcases other found hfound with ⟨rfl, rfl⟩ | hold
    · rcases howner _ hflag with hflag | heq
      · cases hinfo : entryOf other c.players with
        | none =>
            rw [hinfo] at hflag
            cases hflag
        | some info =>
            rw [hinfo] at hflag
            exact h.owner other info hinfo hflag
      · exact heq
    · exact h.owner other found hold hflag
  · intro other found hfound hban
    rcases hcases other found hfound with ⟨rfl, rfl⟩ | hold
    · rw [hname]
      cases hinfo : entryOf other c.players with
      | none => rfl
      | some info => exact h.banned other info hinfo hban
    · exact h.banned other found hold hban
  · intro other
    rw [show (c.modify guid f).listed = c.listed from rfl, h.listed, entryOf_modify]
    split_ifs with heq
    · subst heq
      cases hinfo : entryOf other c.players with
      | none => simp [hname, Ne.symm hne]
      | some info => simp [hname]
    · exact Iff.rfl
  · exact h.nodup

/-- Where nobody has the flag of the owner, anyone may be the owner. -/
theorem Inv.withOwner (h : c.Inv strict)
    (hnone : ∀ guid info, entryOf guid c.players = some info → info.isOwner = false) (owner : ObjectGuid) :
    Inv strict { c with ownerGuid := owner } where
  sorted := h.sorted
  nonzero := h.nonzero
  named := h.named
  owner guid info hinfo hflag := by
    rw [hnone guid info hinfo] at hflag
    cases hflag
  banned := h.banned
  listed := h.listed
  nodup := h.nodup

/-- The flag of the owner goes to a new owner. -/
theorem Inv.owned (h : c.Inv strict)
    (hnone : ∀ guid info, entryOf guid c.players = some info → info.isOwner = false) (hne : guid ≠ 0)
    (hon : strict → c.isOn guid = true) :
    (Channel.modify { c with ownerGuid := guid } guid fun info => info.setOwner true).Inv strict :=
  (h.withOwner hnone guid).modify hne hon (fun _ => rfl) fun _ _ => Or.inr rfl

/-- `SetOwner` keeps the invariant, and the strict one where the new owner is on the channel. -/
theorem Inv.setOwner (h : c.Inv strict) (hzero : users.getPlayer 0 = none)
    (hon : strict → c.isOn guid = true ∨ guid = 0) : (c.setOwner users guid).Inv strict := by
  unfold Channel.setOwner
  split
  · exact h
  · next user huser =>
      have hne : guid ≠ 0 := by
        rintro rfl
        rw [hzero] at huser
        cases huser
      have hmember : strict → c.isOn guid = true := fun hstrict => (hon hstrict).resolve_right hne
      split_ifs with hgeneral hold
      · exact h
      · -- the flag is taken from the old owner first
        refine Inv.owned (h.modify hold.1 (fun _ => hold.2) (fun _ => rfl) fun info hflag => ?_) ?_ hne
          (fun hstrict => isOn_modify _ (hmember hstrict))
        · rw [PlayerInfo.setOwner, PlayerInfo.isOwner, PlayerInfo.hasFlag_putFlag_false] at hflag
          cases hflag
        · intro other info hinfo
          rw [entryOf_modify] at hinfo
          split_ifs at hinfo with heq
          · rw [← Option.some.inj hinfo]
            exact PlayerInfo.hasFlag_putFlag_false _ _
          · exact Bool.eq_false_iff.mpr fun hflag => heq (h.owner other info hinfo hflag)
      · -- the old owner is not on the channel, so nobody has the flag
        refine Inv.owned h (fun other info hinfo => Bool.eq_false_iff.mpr fun hflag => hold ?_) hne hmember
        have hother : c.isOn other = true := isOn_iff.mpr ⟨info, hinfo⟩
        rw [← h.owner other info hinfo hflag]
        exact ⟨h.ne_zero hother, hother⟩

/-- `SetOwner` takes nobody off. -/
theorem isOn_setOwner {other : ObjectGuid} (hon : c.isOn other = true) :
    (c.setOwner users guid).isOn other = true := by
  unfold Channel.setOwner
  split
  · exact hon
  · have hcleared : (c.modify c.ownerGuid fun info => info.setOwner false).isOn other = true :=
      isOn_modify _ hon
    dsimp only
    split_ifs
    · exact hon
    · exact isOn_modify _ hcleared
    · exact isOn_modify _ hon
    · exact hcleared
    · exact hon

/-- A player enters. -/
theorem Inv.enter (h : c.Inv strict) (hne : guid ≠ 0) (hoff : c.isOn guid = false) (hban : guid ∉ c.banned) :
    Inv strict { c with listed := c.listed ++ [guid], players := setEntry guid ⟨guid, 0⟩ c.players } := by
  have hcases : ∀ other found, entryOf other (setEntry guid ⟨guid, 0⟩ c.players) = some found →
      (other = guid ∧ found = ⟨guid, 0⟩) ∨ entryOf other c.players = some found := by
    intro other found hfound
    rw [entryOf_setEntry] at hfound
    split_ifs at hfound with heq
    · exact Or.inl ⟨heq, (Option.some.inj hfound).symm⟩
    · exact Or.inr hfound
  have hnot : guid ∉ c.listed := fun hmem => by
    rw [h.isOn_of_listed hmem] at hoff
    cases hoff
  constructor
  · exact h.sorted.setEntry
  · rw [isOn_eq_false, entryOf_setEntry, if_neg (Ne.symm hne)]
    exact isOn_eq_false.mp h.nonzero
  · intro other found hfound
    rcases hcases other found hfound with ⟨rfl, rfl⟩ | hold
    · exact Or.inl rfl
    · exact h.named other found hold
  · intro other found hfound hflag
    rcases hcases other found hfound with ⟨rfl, rfl⟩ | hold
    · rw [PlayerInfo.isOwner, PlayerInfo.hasFlag_mk_zero] at hflag
      cases hflag
    · exact h.owner other found hold hflag
  · intro other found hfound hmem
    rcases hcases other found hfound with ⟨rfl, rfl⟩ | hold
    · exact absurd hmem hban
    · exact h.banned other found hold hmem
  · intro other
    rw [List.mem_append, List.mem_singleton, h.listed, entryOf_setEntry]
    split_ifs with heq
    · subst heq
      simp
    · simp [heq]
  · exact List.nodup_append.mpr ⟨h.nodup, List.nodup_singleton _,
      fun a ha b hb hab => hnot (List.mem_singleton.mp hb ▸ hab ▸ ha)⟩

/-- A player is taken off, and perhaps banned. -/
theorem Inv.exit (h : c.Inv strict) (guid : ObjectGuid) {banned : List ObjectGuid}
    (hban : ∀ other ∈ banned, other = guid ∨ other ∈ c.banned) :
    Inv strict { c with banned, players := eraseEntry guid c.players, listed := c.listed.filter (· ≠ guid) } := by
  have hcases : ∀ other found, entryOf other (eraseEntry guid c.players) = some found →
      other ≠ guid ∧ entryOf other c.players = some found := by
    intro other found hfound
    rw [entryOf_eraseEntry] at hfound
    split_ifs at hfound with heq
    exact ⟨heq, hfound⟩
  constructor
  · exact h.sorted.eraseEntry guid
  · rw [isOn_eq_false, entryOf_eraseEntry]
    split_ifs
    · rfl
    · exact isOn_eq_false.mp h.nonzero
  · exact fun other found hfound => h.named other found (hcases other found hfound).2
  · exact fun other found hfound => h.owner other found (hcases other found hfound).2
  · intro other found hfound hmem
    obtain ⟨hother, hold⟩ := hcases other found hfound
    exact h.banned other found hold ((hban other hmem).resolve_left hother)
  · intro other
    rw [List.mem_filter, h.listed, entryOf_eraseEntry]
    by_cases heq : other = guid
    · simp [heq]
    · simp [heq]
  · exact h.nodup.filter _

/-- `Leave` keeps the invariant: the first member that is left has its own name, or names nobody. -/
theorem Inv.leave (h : c.Inv strict) (hzero : users.getPlayer 0 = none) :
    (c.leave users guid true).Inv strict := by
  unfold Channel.leave
  have hleft := h.exit guid fun other hother => Or.inr hother
  simp only [if_true]
  split_ifs with hoff howner
  · exact h
  · split
    · exact hleft.setOwner hzero fun _ => Or.inr rfl
    · next first rest hplayers =>
        refine hleft.setOwner hzero fun hstrict => Or.inl ?_
        have hfirst : entryOf first.1 (eraseEntry guid c.players) = some first.2 := by
          rw [hplayers, entryOf_cons, if_pos rfl]
        have hname := (hleft.named first.1 first.2 hfirst).resolve_right fun hnobody => hnobody.2 hstrict
        rw [hname]
        exact isOn_iff.mpr ⟨first.2, hfirst⟩
  · exact hleft

/-- `CleanupChannels` is `Leave` for who has the channel in the list. -/
theorem Inv.cleanupChannels_eq (h : c.Inv strict) :
    c.cleanupChannels users guid = if guid ∈ c.listed then c.leave users guid true else c := by
  unfold Channel.cleanupChannels
  split_ifs with hmem
  · rw [List.count_eq_one_of_mem h.nodup hmem, Function.iterate_one]
    have hfilter : c.listed.erase guid = c.listed.filter (· ≠ guid) := by
      rw [h.nodup.erase_eq_filter]
      exact List.filter_congr fun other _ => by
        rw [bne, decide_not]
        rfl
    have hon : ¬c.isOn guid = false := by
      rw [h.isOn_of_listed hmem]
      decide
    unfold Channel.cleanupChannel
    rw [hfilter]
    exact (if_neg hon).trans (if_neg hon).symm
  · rw [List.count_eq_zero_of_not_mem hmem]
    rfl

/-- `Join` keeps the invariant. -/
theorem Inv.join (h : c.Inv strict) (hzero : users.getPlayer 0 = none)
    (hfound : (users.getPlayer guid).isSome = true) (password : String) (checkPassword : Bool) :
    (c.join users guid password checkPassword).Inv strict := by
  have hne : guid ≠ 0 := by
    rintro rfl
    rw [hzero] at hfound
    cases hfound
  unfold Channel.join
  dsimp only
  rw [if_pos hfound]
  split_ifs with hon hban hpassword hsecurity hguild
  · exact h
  · exact h
  · exact h
  · exact h
  · exact h
  all_goals
    have hentered := h.enter hne (Bool.eq_false_iff.mpr hon) fun hmem => hban (decide_eq_true hmem)
  · -- the first to enter is the owner and a moderator
    have hmember : Channel.isOn { c with listed := c.listed ++ [guid], players := setEntry guid ⟨guid, 0⟩ c.players }
        guid = true := by
      rw [isOn, entryOf_setEntry, if_pos rfl]
      rfl
    refine Inv.modify (hentered.setOwner hzero fun _ => Or.inl hmember) hne (fun _ => isOn_setOwner hmember)
      (fun _ => rfl) fun info hflag => Or.inl ?_
    rwa [PlayerInfo.setModerator, PlayerInfo.isOwner, PlayerInfo.hasFlag_putFlag _ (by decide)] at hflag
  · exact hentered

/-- `KickOrBan` keeps the invariant, and the strict one where no owner kicks himself. -/
theorem Inv.kickOrBan (h : c.Inv strict) (hzero : users.getPlayer 0 = none) (targetName : String) (ban : Bool)
    (hself : strict → ∀ target, users.objectMgrPlayer targetName = some target → target.guid = c.ownerGuid →
      target.guid ≠ guid) :
    (c.kickOrBan users guid targetName ban).Inv strict := by
  unfold Channel.kickOrBan
  split_ifs with hoff hright
  · exact h
  · exact h
  · split
    · exact h
    · next target htarget =>
        have hbans : ∀ other ∈ (if ban = true ∧ c.isBanned target.guid = false then target.guid :: c.banned
            else c.banned), other = target.guid ∨ other ∈ c.banned := by
          intro other hother
          split_ifs at hother
          · exact List.mem_cons.mp hother
          · exact Or.inr hother
        dsimp only
        generalize (if ban = true ∧ c.isBanned target.guid = false then target.guid :: c.banned
          else c.banned) = banned
          at hbans ⊢
        have hkicked := h.exit target.guid hbans
        split_ifs with htargetOff howner hchange
        · exact h
        · exact h
        · split
          · exact hkicked.setOwner hzero fun _ => Or.inr rfl
          · refine hkicked.setOwner hzero fun hstrict => Or.inl ?_
            have hne := hself hstrict target htarget (of_decide_eq_true hchange).symm
            rw [isOn, entryOf_eraseEntry, if_neg (Ne.symm hne)]
            exact Bool.not_eq_false _ ▸ hoff
        · exact hkicked

/-- `SetMode` keeps the invariant. -/
theorem Inv.setMode (h : c.Inv strict) (targetName : String) (moderator set : Bool) :
    (c.setMode users guid targetName moderator set).Inv strict := by
  unfold Channel.setMode
  split
  · exact h
  · split
    · exact h
    · split
      · exact h
      · split
        · exact h
        · next target htarget =>
            split_ifs with hsame htargetOff hteam howner hmoderator
            · exact h
            · exact h
            · exact h
            · exact h
            · exact h
            all_goals
              have hon : c.isOn target.guid = true := Bool.not_eq_false _ ▸ htargetOff
              refine h.modify (h.ne_zero hon) (fun _ => hon) (fun _ => rfl) fun info hflag => Or.inl ?_
            · rwa [PlayerInfo.setModerator, PlayerInfo.isOwner, PlayerInfo.hasFlag_putFlag _ (by decide)] at hflag
            · rwa [PlayerInfo.setMuted, PlayerInfo.isOwner, PlayerInfo.hasFlag_putFlag _ (by decide)] at hflag

/-- `SetOwner` of a name keeps the invariant. -/
theorem Inv.setOwnerNamed (h : c.Inv strict) (hzero : users.getPlayer 0 = none) (targetName : String) :
    (c.setOwnerNamed users guid targetName).Inv strict := by
  unfold Channel.setOwnerNamed
  split
  · exact h
  · split_ifs with hoff howner
    · exact h
    · exact h
    · split
      · exact h
      · next target htarget =>
          split_ifs with htargetOff hteam hgeneral
          · exact h
          · exact h
          · exact h
          · have hon : c.isOn target.guid = true := Bool.not_eq_false _ ▸ htargetOff
            refine Inv.setOwner
              (h.modify (h.ne_zero hon) (fun _ => hon) (fun _ => rfl) fun info hflag => Or.inl ?_)
              hzero fun _ => Or.inl (isOn_modify _ hon)
            rwa [PlayerInfo.setModerator, PlayerInfo.isOwner, PlayerInfo.hasFlag_putFlag _ (by decide)] at hflag

/-- The settings are not part of the invariant, and bans may be lifted. -/
theorem Inv.settings (h : c.Inv strict) {c' : Channel} (hplayers : c'.players = c.players)
    (howner : c'.ownerGuid = c.ownerGuid) (hlisted : c'.listed = c.listed)
    (hbanned : ∀ other ∈ c'.banned, other ∈ c.banned) :
    c'.Inv strict where
  sorted := hplayers ▸ h.sorted
  nonzero := by rw [isOn, hplayers]; exact h.nonzero
  named := hplayers ▸ h.named
  owner := by rw [hplayers, howner]; exact h.owner
  banned guid info hinfo hmem := h.banned guid info (hplayers ▸ hinfo) (hbanned guid hmem)
  listed := by rw [hplayers, hlisted]; exact h.listed
  nodup := hlisted ▸ h.nodup

end Changes

end Channel

/-- Nobody has the empty guid, and the player a request comes from is found. -/
def Input.Admissible (input : Input) : Prop :=
  input.users.getPlayer 0 = none ∧ (input.users.getPlayer input.guid).isSome = true

instance (input : Input) : Decidable input.Admissible := inferInstanceAs (Decidable (_ ∧ _))

namespace Channel

/-- The owner kicks or bans himself. -/
def SelfKick (c : Channel) (input : Input) : Prop :=
  match input.request with
  | .kickOrBan targetName _ =>
      (input.users.objectMgrPlayer targetName).any (fun target =>
        decide (target.guid = input.guid ∧ target.guid = c.ownerGuid)) = true
  | _ => False

/-- A request keeps the invariant, and the strict one if it is not the owner kicking himself. -/
theorem Inv.step {strict : Prop} {c : Channel} (h : c.Inv strict) {input : Input} (hok : input.Admissible)
    (hself : strict → ¬c.SelfKick input) : (c.step input).Inv strict := by
  obtain ⟨users, guid, request⟩ := input
  obtain ⟨hzero, hfound⟩ := hok
  unfold Channel.step
  cases request with
  | join password checkPassword => exact h.join hzero hfound password checkPassword
  | leave => exact h.leave hzero
  | kickOrBan targetName ban =>
      refine h.kickOrBan hzero targetName ban fun hstrict target htarget howner hsame => hself hstrict ?_
      exact (Option.any_eq_true _ _).mpr ⟨target, htarget, decide_eq_true ⟨hsame, howner⟩⟩
  | unBan targetName =>
      show (c.unBan users guid targetName).Inv strict
      unfold Channel.unBan
      split
      · exact h
      · split
        · exact h
        · split
          · exact h
          · exact h.settings rfl rfl rfl fun _ hmem => List.mem_of_mem_filter hmem
  | password password =>
      show (c.setPassword users guid password).Inv strict
      unfold Channel.setPassword
      split_ifs
      · exact h
      · exact h
      · exact h.settings rfl rfl rfl fun _ hmem => hmem
  | setMode targetName moderator set => exact h.setMode targetName moderator set
  | setOwner targetName => exact h.setOwnerNamed hzero targetName
  | announce =>
      show (c.toggleAnnounce users guid).Inv strict
      unfold Channel.toggleAnnounce
      split_ifs
      · exact h
      · exact h
      · exact h.settings rfl rfl rfl fun _ hmem => hmem
  | moderate =>
      show (c.toggleModerate users guid).Inv strict
      unfold Channel.toggleModerate
      split_ifs
      · exact h
      · exact h
      · exact h.settings rfl rfl rfl fun _ hmem => hmem
  | cleanup =>
      show (c.cleanupChannels users guid).Inv strict
      rw [h.cleanupChannels_eq]
      split_ifs
      · exact h.leave hzero
      · exact h

theorem inv_new (strict : Prop) (announce : Bool) (flags : UInt8) (securityLevel : ℕ) (channelId : UInt32) :
    (Channel.new announce flags securityLevel channelId).Inv strict where
  sorted := List.Pairwise.nil
  nonzero := rfl
  named _ _ hinfo := nomatch hinfo
  owner _ _ hinfo := nomatch hinfo
  banned _ _ hinfo := nomatch hinfo
  listed _ := ⟨nofun, fun ⟨_, hinfo, _⟩ => nomatch hinfo⟩
  nodup := List.nodup_nil

theorem listed_setOwner (c : Channel) (users : Users) (guid : ObjectGuid) :
    (c.setOwner users guid).listed = c.listed := by
  unfold Channel.setOwner
  split
  · rfl
  · dsimp only
    split_ifs <;> rfl

/-- Who leaves has the channel in the list no more. -/
theorem not_mem_listed_leave {c : Channel} {users : Users} {guid : ObjectGuid} (hon : c.isOn guid = true) :
    guid ∉ (c.leave users guid true).listed := by
  have hoff : ¬c.isOn guid = false := by
    rw [hon]
    decide
  have hnot : guid ∉ c.listed.filter (· ≠ guid) := fun hmem => by
    simp at hmem
  unfold Channel.leave
  rw [if_neg hoff]
  simp only [if_true]
  split_ifs
  · split
    · rwa [listed_setOwner]
    · rwa [listed_setOwner]
  · exact hnot

/-- Where the invariant is strict, who logs out is not on the channel. -/
theorem Inv.isOn_cleanupChannels {c : Channel} (h : c.Inv True) {users : Users} (hzero : users.getPlayer 0 = none)
    (guid : ObjectGuid) : (c.cleanupChannels users guid).isOn guid = false := by
  have hlisted : ∀ {c : Channel}, c.Inv True → c.isOn guid = true → guid ∈ c.listed := by
    intro c h hon
    obtain ⟨info, hinfo⟩ := isOn_iff.mp hon
    exact (h.listed guid).mpr
      ⟨info, hinfo, (h.named guid info hinfo).resolve_right fun hnobody => hnobody.2 trivial⟩
  rw [h.cleanupChannels_eq]
  split_ifs with hmem
  · exact Bool.eq_false_iff.mpr fun hon =>
      not_mem_listed_leave (h.isOn_of_listed hmem) (hlisted (h.leave hzero) hon)
  · exact Bool.eq_false_iff.mpr fun hon => hmem (hlisted h hon)

/-- The invariant through a run, strict if no owner kicks himself in it. -/
theorem Inv.run {strict : Prop} {c : Channel} (h : c.Inv strict) {inputs : List Input}
    (hok : Along (fun c input => input.Admissible ∧ (strict → ¬c.SelfKick input)) Channel.step c inputs) :
    (Lib.run Channel.step c inputs).Inv strict :=
  run_invariant (Inv strict) (fun _ _ hinput h => h.step hinput.1 hinput.2) h hok

/-- After any requests to a new channel no member but the owner has the flag of the owner, a banned player is not
a member, and exactly the members have the channel in their list; apart from this are entries that name nobody,
which an owner leaves who kicks himself. In a run without such a kick there are none, and who logs out is then
not on the channel. -/
theorem run_channel (strict : Prop) (announce : Bool) (flags : UInt8) (securityLevel : ℕ) (channelId : UInt32)
    (inputs : List Input)
    (hok : Along (fun c input => input.Admissible ∧ (strict → ¬c.SelfKick input)) Channel.step
      (Channel.new announce flags securityLevel channelId) inputs) :
    (run Channel.step (Channel.new announce flags securityLevel channelId) inputs).Inv strict ∧
      (strict → ∀ users guid, users.getPlayer 0 = none →
        ((run Channel.step (Channel.new announce flags securityLevel channelId) inputs).cleanupChannels users
          guid).isOn guid = false) := by
  have hinv := (inv_new strict announce flags securityLevel channelId).run hok
  refine ⟨hinv, fun hstrict users guid hzero => ?_⟩
  rw [eq_true hstrict] at hinv
  exact hinv.isOn_cleanupChannels hzero guid

/-- Three players with the numbers as names. -/
def threePlayers : Users :=
  let user (guid : ObjectGuid) : ChannelUser := ⟨guid, 0, 0, 469⟩
  let named (name : String) : Option ChannelUser :=
    if name = "One" then some (user 1) else if name = "Two" then some (user 2)
    else if name = "Three" then some (user 3) else none
  ⟨fun guid => if 1 ≤ guid ∧ guid ≤ 3 then some (user guid) else none, named, named, false⟩

/-- The first player founds the channel, makes the second a moderator, who bans the third and becomes the owner
when the first leaves. -/
def founding : List Input :=
  [⟨threePlayers, 1, .join "" true⟩, ⟨threePlayers, 2, .join "" true⟩, ⟨threePlayers, 3, .join "" true⟩,
    ⟨threePlayers, 1, .setMode "Two" true true⟩, ⟨threePlayers, 2, .kickOrBan "Three" true⟩,
    ⟨threePlayers, 1, .leave⟩]

theorem run_channel_founding :
    (run Channel.step (Channel.new true 1 0 0) founding).Inv True ∧
      (True → ∀ users guid, users.getPlayer 0 = none →
        ((run Channel.step (Channel.new true 1 0 0) founding).cleanupChannels users guid).isOn guid = false) := by
  refine run_channel True true 1 0 0 founding ?_
  refine ⟨⟨by decide, fun _ => id⟩, ⟨by decide, fun _ => id⟩, ⟨by decide, fun _ => id⟩, ⟨by decide, fun _ => id⟩,
    ⟨by decide, fun _ => ?_⟩, ⟨by decide, fun _ => id⟩, trivial⟩
  show ¬(_ = true)
  decide

/-- Nothing but the membership of some guids differs, and these have no flags if they are on the channel. -/
structure SameBut (touched : ObjectGuid → Prop) (c c' : Channel) : Prop where
  announce : c'.announce = c.announce
  moderate : c'.moderate = c.moderate
  password : c'.password = c.password
  flags : c'.flags = c.flags
  securityLevel : c'.securityLevel = c.securityLevel
  channelId : c'.channelId = c.channelId
  ownerGuid : c'.ownerGuid = c.ownerGuid
  banned : c'.banned = c.banned
  entry : ∀ guid, entryOf guid c'.players = entryOf guid c.players ∨
    touched guid ∧ (entryOf guid c'.players = none ∨ entryOf guid c'.players = some ⟨guid, 0⟩)

theorem SameBut.refl (touched : ObjectGuid → Prop) (c : Channel) : SameBut touched c c :=
  ⟨rfl, rfl, rfl, rfl, rfl, rfl, rfl, rfl, fun _ => Or.inl rfl⟩

theorem SameBut.trans {touched touched' : ObjectGuid → Prop} {c c' c'' : Channel} (h : SameBut touched c c')
    (h' : SameBut touched' c' c'') (hsub : ∀ guid, touched' guid → touched guid) : SameBut touched c c'' where
  announce := h'.announce.trans h.announce
  moderate := h'.moderate.trans h.moderate
  password := h'.password.trans h.password
  flags := h'.flags.trans h.flags
  securityLevel := h'.securityLevel.trans h.securityLevel
  channelId := h'.channelId.trans h.channelId
  ownerGuid := h'.ownerGuid.trans h.ownerGuid
  banned := h'.banned.trans h.banned
  entry guid := by
    rcases h'.entry guid with hsame | ⟨htouched, hentry⟩
    · rw [hsame]
      exact h.entry guid
    · exact Or.inr ⟨hsub guid htouched, hentry⟩

section Unprivileged

variable {c : Channel} {users : Users} {guid : ObjectGuid}

/-- Without the flag of the owner, leaving is that. -/
theorem sameBut_leave (h : c.Inv False) (howner : guid ≠ c.ownerGuid) :
    SameBut (· = guid) c (c.leave users guid true) := by
  unfold Channel.leave
  simp only [if_true]
  split_ifs with hoff hchange
  · exact SameBut.refl _ c
  · obtain ⟨info, hinfo, hflag⟩ := (Option.any_eq_true _ _).mp hchange
    exact absurd (h.owner guid info hinfo hflag) howner
  · refine ⟨rfl, rfl, rfl, rfl, rfl, rfl, rfl, rfl, fun other => ?_⟩
    rw [entryOf_eraseEntry]
    split_ifs with heq
    · exact Or.inr ⟨heq, Or.inl rfl⟩
    · exact Or.inl rfl

/-- Where there is an owner or none is wanted, joining is that. -/
theorem sameBut_join
    (hset : ¬(c.hasFlag channelFlagCustom = true ∧ c.isConstant = false ∧ c.ownerGuid = 0)) (password : String)
    (checkPassword : Bool) : SameBut (· = guid) c (c.join users guid password checkPassword) := by
  unfold Channel.join
  dsimp only
  split_ifs
  iterate 5 exact SameBut.refl _ c
  all_goals first
    | exact absurd ‹_› hset
    | refine ⟨rfl, rfl, rfl, rfl, rfl, rfl, rfl, rfl, fun other => ?_⟩
      rw [entryOf_setEntry]
      split_ifs with heq
      · exact Or.inr ⟨heq, Or.inr (by rw [heq])⟩
      · exact Or.inl rfl

end Unprivileged

/-- The player a request comes from is neither moderator nor owner, nor of the staff. -/
def Unprivileged (c : Channel) (input : Input) : Prop :=
  c.isModerator input.guid = false ∧ input.guid ≠ c.ownerGuid ∧ input.users.security input.guid < secObserver

instance (c : Channel) (input : Input) : Decidable (c.Unprivileged input) := inferInstanceAs (Decidable (_ ∧ _ ∧ _))

/-- A request of such a player changes the own membership at most. -/
theorem sameBut_step {c : Channel} (h : c.Inv False)
    (hset : ¬(c.hasFlag channelFlagCustom = true ∧ c.isConstant = false ∧ c.ownerGuid = 0)) {input : Input}
    (hlow : c.Unprivileged input) : SameBut (· = input.guid) c (c.step input) := by
  obtain ⟨users, guid, request⟩ := input
  obtain ⟨hmoderator, howner, hsecurity⟩ := hlow
  have hrefused : c.isModerator guid = false ∧ users.security guid < secObserver := ⟨hmoderator, hsecurity⟩
  have hnobody : SameBut (· = guid) c c := SameBut.refl _ c
  -- what `SetMode` and `SetOwner` compare is the security of the player that is found
  have hplayer : ∀ player, users.getPlayer guid = some player → player.security < secObserver := by
    intro player hfound
    have hlt : users.security guid < secObserver := hsecurity
    rwa [Users.security, hfound] at hlt
  unfold Channel.step
  cases request with
  | join password checkPassword => exact sameBut_join hset password checkPassword
  | leave => exact sameBut_leave h howner
  | kickOrBan targetName ban =>
      show SameBut (· = guid) c (c.kickOrBan users guid targetName ban)
      unfold Channel.kickOrBan
      rw [if_pos hrefused, ite_self]
      exact hnobody
  | unBan targetName =>
      show SameBut (· = guid) c (c.unBan users guid targetName)
      unfold Channel.unBan
      rw [if_pos hrefused, ite_self]
      exact hnobody
  | password password =>
      show SameBut (· = guid) c (c.setPassword users guid password)
      unfold Channel.setPassword
      rw [if_pos hrefused, ite_self]
      exact hnobody
  | setMode targetName moderator set =>
      show SameBut (· = guid) c (c.setMode users guid targetName moderator set)
      unfold Channel.setMode
      split
      · exact hnobody
      · next player hfound =>
          have hlow : c.isModerator guid = false ∧ player.security < secObserver :=
            ⟨hmoderator, hplayer player hfound⟩
          rw [if_pos hlow, ite_self]
          exact hnobody
  | setOwner targetName =>
      show SameBut (· = guid) c (c.setOwnerNamed users guid targetName)
      unfold Channel.setOwnerNamed
      split
      · exact hnobody
      · next player hfound =>
          have hlow : player.security < secObserver ∧ guid ≠ c.ownerGuid := ⟨hplayer player hfound, howner⟩
          rw [if_pos hlow, ite_self]
          exact hnobody
  | announce =>
      show SameBut (· = guid) c (c.toggleAnnounce users guid)
      unfold Channel.toggleAnnounce
      rw [if_pos hrefused, ite_self]
      exact hnobody
  | moderate =>
      show SameBut (· = guid) c (c.toggleModerate users guid)
      unfold Channel.toggleModerate
      rw [if_pos hrefused, ite_self]
      exact hnobody
  | cleanup =>
      show SameBut (· = guid) c (c.cleanupChannels users guid)
      rw [h.cleanupChannels_eq]
      split_ifs
      · exact sameBut_leave h howner
      · exact hnobody

/-- Who has no privilege gets none by what others without privilege do. -/
theorem SameBut.unprivileged {touched : ObjectGuid → Prop} {c c' : Channel} (h : SameBut touched c c') {input : Input}
    (hlow : c.Unprivileged input) : c'.Unprivileged input := by
  obtain ⟨hmoderator, howner, hsecurity⟩ := hlow
  refine ⟨?_, h.ownerGuid ▸ howner, hsecurity⟩
  rw [isModerator]
  rcases h.entry input.guid with hsame | ⟨-, hnone | hfresh⟩
  · rw [hsame]
    exact hmoderator
  · rw [hnone]
    rfl
  · rw [hfresh]
    exact PlayerInfo.hasFlag_mk_zero _ _

/-- The invariant through a run of the manager. -/
theorem inv_runMgr {new : Channel} (hnew : new.Inv False) {inputs : List MgrInput}
    (hok : ∀ input, .request input ∈ inputs → input.Admissible) {c : Channel}
    (hc : Lib.run (mgrStep new) none inputs = some c) : c.Inv False := by
  have hstep : ∀ (found : Option Channel) (input : MgrInput), input ∈ inputs →
      (∀ c, found = some c → c.Inv False) → ∀ c, mgrStep new found input = some c → c.Inv False := by
    intro found input hmem hfound c hc
    cases input with
    | leftChannel =>
        cases found with
        | none => cases hc
        | some c' =>
            simp only [mgrStep] at hc
            split_ifs at hc
            exact hfound c hc
    | request input =>
        have hinput := hok input hmem
        cases found with
        | some c' =>
            obtain rfl := Option.some.inj hc
            exact (hfound c' rfl).step hinput False.elim
        | none =>
            simp only [mgrStep] at hc
            split at hc
            · obtain rfl := Option.some.inj hc
              exact hnew.step hinput False.elim
            · cases hc
  have hnone : ∀ c, (none : Option Channel) = some c → c.Inv False := by
    intro c hc
    cases hc
  exact run_invariant (fun found : Option Channel => ∀ c, found = some c → c.Inv False) hstep hnone
    (along_of_mem (fun _ hmem _ => hmem) none) c hc

/-- The channel is one that `LeftChannel` deletes when nobody is on it. -/
def Deletable (c : Channel) : Prop := c.isConstant = false ∧ c.securityLevel = 0

/-- From a channel that differs in their membership at most, requests of the unprivileged lead to such a channel,
or to its deletion when nobody is on it. -/
theorem sameBut_run {new c : Channel} {touched : ObjectGuid → Prop}
    (hset : ¬(c.hasFlag channelFlagCustom = true ∧ c.isConstant = false ∧ c.ownerGuid = 0))
    {inputs : List MgrInput} (hok : ∀ input, .request input ∈ inputs → input.Admissible)
    (hlow : ∀ input, .request input ∈ inputs → c.Unprivileged input)
    (htouched : ∀ input, .request input ∈ inputs → touched input.guid) {c' : Channel} (hinv : c'.Inv False)
    (hsame : SameBut touched c c') :
    (∃ last, Lib.run (mgrStep new) (some c') inputs = some last ∧ SameBut touched c last) ∨
      ∃ gone rest last, inputs = gone ++ rest ∧ Lib.run (mgrStep new) (some c') gone = none ∧
        SameBut touched c last ∧ last.players = [] ∧ last.Deletable := by
  induction inputs generalizing c' with
  | nil => exact Or.inl ⟨c', rfl, hsame⟩
  | cons input rest ih =>
      have hlater : ∀ later, MgrInput.request later ∈ rest → MgrInput.request later ∈ input :: rest :=
        fun _ hmem => List.mem_cons_of_mem _ hmem
      have ih := fun {c'} => @ih (fun later hmem => hok later (hlater later hmem))
        (fun later hmem => hlow later (hlater later hmem)) (fun later hmem => htouched later (hlater later hmem)) c'
      -- where the channel is still there after the first input, the rest follows from it
      have hgo : ∀ next, mgrStep new (some c') input = some next → next.Inv False → SameBut touched c next →
          (∃ last, Lib.run (mgrStep new) (some c') (input :: rest) = some last ∧ SameBut touched c last) ∨
            ∃ gone rest' last, input :: rest = gone ++ rest' ∧ Lib.run (mgrStep new) (some c') gone = none ∧
              SameBut touched c last ∧ last.players = [] ∧ last.Deletable := by
        intro next hnext hinv' hsame'
        rw [run_cons, hnext]
        rcases ih hinv' hsame' with hthere | ⟨gone, rest', last, rfl, hgone, hlast⟩
        · exact Or.inl hthere
        · refine Or.inr ⟨input :: gone, rest', last, rfl, ?_, hlast⟩
          rw [run_cons, hnext]
          exact hgone
      cases input with
      | request input =>
          refine hgo _ rfl (hinv.step (hok input List.mem_cons_self) False.elim) ?_
          refine hsame.trans (sameBut_step hinv ?_ (hsame.unprivileged (hlow input List.mem_cons_self))) ?_
          · rwa [hasFlag, isConstant, hsame.flags, hsame.channelId, hsame.ownerGuid]
          · rintro guid rfl
            exact htouched input List.mem_cons_self
      | leftChannel =>
          by_cases hgone : c'.players = [] ∧ c'.isConstant = false ∧ c'.securityLevel = 0
          · exact Or.inr ⟨[.leftChannel], rest, c', rfl, if_pos hgone, hsame, hgone.1, hgone.2⟩
          · exact hgo c' (if_neg hgone) hinv hsame

/-- On a channel that has an owner or wants none, players who are neither moderator nor owner at the start and
never of the staff change nothing but their own membership, whatever requests they make and in whatever order:
the password, the bans, the owner and both modes stay, so does every member who asks for nothing, and who did
ask is off the channel, on it as before, or on it without any flags. The one exception is a channel on which
nobody else is, and which is neither constant nor secured: it may be deleted when the last of them has left. -/
theorem run_unprivileged (announce : Bool) (flags : UInt8) (securityLevel : ℕ) (channelId : UInt32)
    (before after : List MgrInput) (hok : ∀ input, .request input ∈ before ++ after → input.Admissible)
    {c : Channel}
    (hc : run (mgrStep (Channel.new announce flags securityLevel channelId)) none before = some c)
    (hset : ¬(c.hasFlag channelFlagCustom = true ∧ c.isConstant = false ∧ c.ownerGuid = 0))
    (hlow : ∀ input, .request input ∈ after → c.Unprivileged input) :
    (∃ c', run (mgrStep (Channel.new announce flags securityLevel channelId)) (some c) after = some c' ∧
        SameBut (fun guid => ∃ input, .request input ∈ after ∧ input.guid = guid) c c') ∨
      c.Deletable ∧ (∀ guid, c.isOn guid = true → ∃ input, .request input ∈ after ∧ input.guid = guid) ∧
        ∃ gone rest, after = gone ++ rest ∧
          run (mgrStep (Channel.new announce flags securityLevel channelId)) (some c) gone = none := by
  have hinv : c.Inv False := inv_runMgr (inv_new False announce flags securityLevel channelId)
    (fun input hmem => hok input (List.mem_append_left _ hmem)) hc
  have htouched : ∀ input, MgrInput.request input ∈ after →
      ∃ other, MgrInput.request other ∈ after ∧ other.guid = input.guid := fun input hmem => ⟨input, hmem, rfl⟩
  have hsame : SameBut (fun guid => ∃ input, MgrInput.request input ∈ after ∧ input.guid = guid) c c :=
    SameBut.refl _ c
  rcases sameBut_run hset (fun input hmem => hok input (List.mem_append_right _ hmem)) hlow htouched hinv
      hsame with hthere | ⟨gone, rest, last, hafter, hgone, hlast, hempty, hconstant, hsecured⟩
  · exact Or.inl hthere
  · refine Or.inr ⟨⟨?_, hlast.securityLevel ▸ hsecured⟩, fun guid hon => ?_, gone, rest, hafter, hgone⟩
    · rwa [isConstant, hlast.channelId] at hconstant
    · -- a member that nobody touched would still be there
      rcases hlast.entry guid with hsame | ⟨htouched, -⟩
      · rw [hempty] at hsame
        rw [isOn, ← hsame] at hon
        cases hon
      · exact htouched

/-- The third player tries to ban the owner, to be the owner and to set a password, and leaves. -/
def thirdTries : List MgrInput :=
  [.request ⟨threePlayers, 3, .kickOrBan "One" true⟩, .request ⟨threePlayers, 3, .setOwner "Three"⟩,
    .request ⟨threePlayers, 3, .password "three"⟩, .request ⟨threePlayers, 3, .leave⟩, .leftChannel]

/-- Since the other two stay, so does the channel. -/
theorem run_unprivileged_third :
    ∃ c c', run (mgrStep (Channel.new true 1 0 0)) none ((founding.take 3).map .request) = some c ∧
      run (mgrStep (Channel.new true 1 0 0)) (some c) thirdTries = some c' ∧
      SameBut (fun guid => ∃ input, .request input ∈ thirdTries ∧ input.guid = guid) c c' := by
  let c := run Channel.step (Channel.new true 1 0 0) (founding.take 3)
  have hthird : ∀ input, MgrInput.request input ∈ thirdTries → input.users = threePlayers ∧ input.guid = 3 := by
    intro input hmem
    simp only [thirdTries, List.mem_cons, MgrInput.request.injEq, List.not_mem_nil, or_false, reduceCtorEq] at hmem
    rcases hmem with rfl | rfl | rfl | rfl <;> exact ⟨rfl, rfl⟩
  have hok : ∀ input, MgrInput.request input ∈ (founding.take 3).map .request ++ thirdTries →
      input.Admissible := by
    intro input hmem
    rcases List.mem_append.mp hmem with hfirst | hlater
    · obtain ⟨first, hmem', heq⟩ := List.mem_map.mp hfirst
      have hadmissible : ∀ first ∈ founding.take 3, first.Admissible := by decide
      exact MgrInput.request.inj heq ▸ hadmissible first hmem'
    · obtain ⟨husers, hguid⟩ := hthird input hlater
      unfold Input.Admissible
      rw [husers, hguid]
      decide
  have hlow : ∀ input, MgrInput.request input ∈ thirdTries → c.Unprivileged input := by
    intro input hmem
    obtain ⟨husers, hguid⟩ := hthird input hmem
    unfold Unprivileged
    rw [husers, hguid]
    decide
  rcases run_unprivileged true 1 0 0 ((founding.take 3).map .request) thirdTries hok (c := c) rfl (by decide) hlow
    with ⟨c', hrun, hsame⟩ | ⟨-, hall, -⟩
  · exact ⟨c, c', rfl, hrun, hsame⟩
  · obtain ⟨input, hmem, hone⟩ := hall 1 (by decide)
    rw [(hthird input hmem).2] at hone
    cases hone

/-- Alone on the channel, they end its bans by leaving and joining again. -/
def lastLeaves : List MgrInput :=
  [.request ⟨threePlayers, 2, .leave⟩, .leftChannel, .request ⟨threePlayers, 2, .join "" true⟩]

example :
    let c : Channel := ⟨false, false, "", 0x10, 0, 0, 0, [(2, ⟨2, 0⟩)], [3], [2]⟩
    (run (mgrStep (Channel.new false 0x10 0 0)) (some c) lastLeaves).map Channel.banned = some [] := by
  decide

end Channel

end TwowCore.Chat
