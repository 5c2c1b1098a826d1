import Mathlib.Data.List.Flatten
import Mathlib.Data.List.Perm.Basic
import TwowCore.Guilds.Membership
import TwowCore.Lib.Keyed

/-!
# One guild for a character

`Registered` is what holds of the manager along every run in which no completed petition is turned
in while one who signed it is logging in, and every member who logs in finds his row in the database.
`run_registered` keeps it, and `run_memberships` reads off what it says of guilds and signatures.

The proofs follow the index `guid2guild`: `join` and `eraseMember` are what changes it, and every
request is made of these two and of what `Signed` says about the lists of signatures.
-/

namespace TwowCore.Guilds.Membership

/-- Everyone who has signed a petition. -/
def signers (petitions : List Petition) : List ℕ :=
  petitions.flatMap fun p => p.signatures.map Signature.player

/-- What holds of the petitions: distinct ids, nobody signs twice, no account signs one petition
twice, and no petition has more signatures than are required. -/
structure Signed (required nextId : ℕ) (petitions : List Petition) : Prop where
  ids : (petitions.map Petition.id).Nodup
  fresh : ∀ p ∈ petitions, p.id < nextId
  once : (signers petitions).Nodup
  accounts : ∀ p ∈ petitions, (p.signatures.map Signature.account).Nodup
  length : ∀ p ∈ petitions, p.signatures.length ≤ required

/-- The guild of an id has a member. -/
def GuildMgr.MemberOf (s : GuildMgr) (id guid : ℕ) : Prop :=
  ∃ g ∈ s.guilds, g.id = id ∧ guid ∈ g.members

/-- What holds of the manager. The index and the members say the same; who has a session or is logging
in carries the guild he is in; and who signs has no guild. -/
structure Registered (s : GuildMgr) : Prop where
  ids : (s.guilds.map Roster.id).Nodup
  fresh : ∀ g ∈ s.guilds, 0 < g.id ∧ g.id < s.nextGuildId
  next : 0 < s.nextGuildId
  index : ∀ guid id, s.guid2guild guid = some id ↔ s.MemberOf id guid
  sessions : ∀ p ∈ s.players, ∀ id, s.guid2guild p.guid = some id → p.guildId = id
  logins : ∀ l ∈ s.logins, ∀ id, s.guid2guild l.1 = some id → l.2 = id
  apart : ∀ l ∈ s.logins, ∀ p ∈ s.players, p.guid ≠ l.1
  signed : Signed s.getPetitionSignsRequired s.nextPetitionId s.petitions
  free : ∀ guid ∈ signers s.petitions, s.guid2guild guid = none

/-- A completed petition is turned in only when none of those who signed it is logging in, and the login
query of a member finds the row of his guild. -/
def Careful (s : GuildMgr) : Event → Prop
  | .request sender (.turnInPetition id) =>
      ∀ p petition, s.findPlayer sender = some p → p.inWorld = true → p.guildId = 0 →
        s.getPetitionById id = some petition → p.guid = petition.ownerGuid →
        petition.signatures.length = s.minPetitionSigns →
        (s.guilds.any fun g => g.name = petition.name) = false →
        ∀ signature ∈ petition.signatures, ∀ l ∈ s.logins, l.1 ≠ signature.player
  | .loginQuery guid =>
      s.findPlayer guid = none → ∀ id, s.guid2guild guid = some id → s.stored guid = some id
  | _ => True

section Petitions

variable {required nextId guid : ℕ} {petitions : List Petition} {p : Petition}

/-- Deleting a signature deletes the name. -/
theorem players_deleteSignature (p : Petition) (guid : ℕ) :
    (p.deleteSignature guid).signatures.map Signature.player =
      (p.signatures.map Signature.player).erase guid := by
  rw [List.erase_eq_eraseP, List.eraseP_map]
  show List.map _ (p.signatures.eraseP _) = _
  congr 2
  funext signature
  show decide (signature.player = guid) = decide (guid = signature.player)
  simp [eq_comm]

/-- Who has signed is found among the signatures. -/
theorem signedBy_iff : p.signedBy guid = true ↔ guid ∈ p.signatures.map Signature.player := by
  simp [Petition.signedBy]

/-- The names after the first signature of a character is taken out. -/
theorem signers_removeSignature (guid : ℕ) (petitions : List Petition) :
    signers (removeSignature guid petitions) = (signers petitions).erase guid := by
  induction petitions with
  | nil => rfl
  | cons p rest ih =>
      have hcons : signers (p :: rest) = p.signatures.map Signature.player ++ signers rest := rfl
      unfold removeSignature
      rw [hcons, List.erase_append]
      by_cases hsigned : p.signedBy guid = true
      · rw [if_pos hsigned, if_pos (signedBy_iff.mp hsigned)]
        show (p.deleteSignature guid).signatures.map Signature.player ++ signers rest = _
        rw [players_deleteSignature]
      · rw [if_neg hsigned, if_neg fun h => hsigned (signedBy_iff.mpr h)]
        show p.signatures.map Signature.player ++ signers (removeSignature guid rest) = _
        rw [ih]

/-- What is in a petition comes from the petition it was. -/
theorem mem_removeSignature (h : p ∈ removeSignature guid petitions) :
    ∃ old ∈ petitions, p.id = old.id ∧ p.signatures.Sublist old.signatures := by
  induction petitions with
  | nil => cases h
  | cons q rest ih =>
      unfold removeSignature at h
      split at h
      · rcases List.mem_cons.mp h with rfl | hrest
        · exact ⟨q, List.mem_cons_self, rfl, List.eraseP_sublist⟩
        · exact ⟨p, List.mem_cons_of_mem _ hrest, rfl, List.Sublist.refl _⟩
      · rcases List.mem_cons.mp h with rfl | hrest
        · exact ⟨p, List.mem_cons_self, rfl, List.Sublist.refl _⟩
        · obtain ⟨old, hold, hsame⟩ := ih hrest
          exact ⟨old, List.mem_cons_of_mem _ hold, hsame⟩

/-- Taking a signature out keeps the ids. -/
theorem removeSignature_ids (guid : ℕ) (petitions : List Petition) :
    (removeSignature guid petitions).map Petition.id = petitions.map Petition.id := by
  induction petitions with
  | nil => rfl
  | cons q rest ih =>
      unfold removeSignature
      split
      · rfl
      · rw [List.map_cons, List.map_cons, ih]

/-- Taking a signature out. -/
theorem Signed.remove (h : Signed required nextId petitions) (guid : ℕ) :
    Signed required nextId (removeSignature guid petitions) where
  ids := by rw [removeSignature_ids]; exact h.ids
  fresh p hp := by
    obtain ⟨old, hold, hid, -⟩ := mem_removeSignature hp
    rw [hid]
    exact h.fresh old hold
  once := by rw [signers_removeSignature]; exact h.once.erase guid
  accounts p hp := by
    obtain ⟨old, hold, -, hsub⟩ := mem_removeSignature hp
    exact (h.accounts old hold).sublist (hsub.map _)
  length p hp := by
    obtain ⟨old, hold, -, hsub⟩ := mem_removeSignature hp
    exact Nat.le_trans hsub.length_le (h.length old hold)

/-- Whose signature is taken out has none. -/
theorem Signed.removed (h : Signed required nextId petitions) (guid : ℕ) :
    guid ∉ signers (removeSignature guid petitions) := by
  rw [signers_removeSignature]
  exact h.once.not_mem_erase

/-- The names of the petitions that are left. -/
theorem signers_eraseKey (id : ℕ) :
    (signers (Lib.eraseKey Petition.id id petitions)).Sublist (signers petitions) :=
  List.filter_sublist.flatMap _

/-- Taking a petition out. -/
theorem Signed.delete (h : Signed required nextId petitions) (id : ℕ) :
    Signed required nextId (Lib.eraseKey Petition.id id petitions) where
  ids := Lib.eraseKey_nodup h.ids
  fresh p hp := h.fresh p (Lib.mem_eraseKey.mp hp).1
  once := h.once.sublist (signers_eraseKey id)
  accounts p hp := h.accounts p (Lib.mem_eraseKey.mp hp).1
  length p hp := h.length p (Lib.mem_eraseKey.mp hp).1

/-- A new petition. -/
theorem Signed.buy (h : Signed required nextId petitions) (owner : ℕ) (name : Text) :
    Signed required (nextId + 1) (petitions ++ [⟨nextId, owner, name, []⟩]) where
  ids := by
    rw [List.map_append]
    refine List.nodup_append.mpr ⟨h.ids, List.nodup_singleton _, ?_⟩
    rintro _ hid _ hnew rfl
    obtain ⟨p, hp, hpid⟩ := List.mem_map.mp hid
    have hlt := h.fresh p hp
    have hid' : _ = nextId := List.mem_singleton.mp hnew
    omega
  fresh p hp := by
    rcases List.mem_append.mp hp with hold | hnew
    · have := h.fresh p hold
      omega
    · rw [List.mem_singleton.mp hnew]
      exact Nat.lt_succ_self nextId
  once := by
    have happend : signers (petitions ++ [⟨nextId, owner, name, []⟩]) = signers petitions := by
      simp [signers]
    rw [happend]
    exact h.once
  accounts p hp := by
    rcases List.mem_append.mp hp with hold | hnew
    · exact h.accounts p hold
    · rw [List.mem_singleton.mp hnew]
      exact List.nodup_nil
  length p hp := by
    rcases List.mem_append.mp hp with hold | hnew
    · exact h.length p hold
    · rw [List.mem_singleton.mp hnew]
      exact Nat.zero_le _

/-- Puts a signature at the end of a petition. -/
def addNewSignature (signature : Signature) (p : Petition) : Petition :=
  { p with signatures := p.signatures ++ [signature] }

/-- The names with one more. -/
theorem signers_add (hids : (petitions.map Petition.id).Nodup) (hp : p ∈ petitions)
    (signature : Signature) :
    (signers (Lib.writeKey Petition.id p.id (addNewSignature signature) petitions)).Perm
      (signature.player :: signers petitions) := by
  induction petitions with
  | nil => cases hp
  | cons q rest ih =>
      rw [List.map_cons, List.nodup_cons] at hids
      obtain ⟨hnot, hrest⟩ := hids
      rcases List.mem_cons.mp hp with rfl | hp
      · have hsame : Lib.writeKey Petition.id p.id (addNewSignature signature) rest = rest :=
          Lib.writeKey_of_notMem hnot
        have hcons : Lib.writeKey Petition.id p.id (addNewSignature signature) (p :: rest) =
            addNewSignature signature p :: rest := by
          show (if p.id = p.id then _ else p) :: Lib.writeKey Petition.id p.id _ rest = _
          rw [hsame, if_pos rfl]
        rw [hcons]
        show ((p.signatures ++ [signature]).map Signature.player ++ signers rest).Perm
          (signature.player :: (p.signatures.map Signature.player ++ signers rest))
        rw [List.map_append, List.append_assoc]
        exact List.perm_middle
      · have hne : q.id ≠ p.id := by
          intro hid
          exact hnot (hid ▸ List.mem_map_of_mem hp)
        have hcons : Lib.writeKey Petition.id p.id (addNewSignature signature) (q :: rest) =
            q :: Lib.writeKey Petition.id p.id (addNewSignature signature) rest := by
          show (if q.id = p.id then _ else q) :: _ = _
          rw [if_neg hne]
          rfl
        rw [hcons]
        show (q.signatures.map Signature.player ++ _).Perm
          (signature.player :: (q.signatures.map Signature.player ++ signers rest))
        exact ((ih hrest hp).append_left _).trans List.perm_middle

/-- One more signature. -/
theorem Signed.add (h : Signed required nextId petitions) (hp : p ∈ petitions)
    {signature : Signature} (hnot : signature.player ∉ signers petitions)
    (haccount : signature.account ∉ p.signatures.map Signature.account)
    (hlength : p.signatures.length < required) :
    Signed required nextId
      (Lib.writeKey Petition.id p.id (addNewSignature signature) petitions) where
  ids := by
    have hkeys : (Lib.writeKey Petition.id p.id (addNewSignature signature) petitions).map
        Petition.id = petitions.map Petition.id := Lib.writeKey_keys fun _ _ => rfl
    rw [hkeys]
    exact h.ids
  fresh q hq := by
    obtain ⟨old, hold, rfl⟩ := Lib.mem_writeKey.mp hq
    split_ifs <;> exact h.fresh old hold
  once := by
    rw [(signers_add h.ids hp signature).nodup_iff, List.nodup_cons]
    exact ⟨hnot, h.once⟩
  accounts q hq := by
    obtain ⟨old, hold, rfl⟩ := Lib.mem_writeKey.mp hq
    split_ifs with hid
    · have hsame : old = p := List.inj_on_of_nodup_map h.ids hold hp hid
      subst hsame
      show ((old.signatures ++ [signature]).map Signature.account).Nodup
      rw [List.map_append]
      refine List.nodup_append.mpr ⟨h.accounts old hold, List.nodup_singleton _, ?_⟩
      rintro account hmem _ hnew rfl
      rw [List.map_singleton, List.mem_singleton] at hnew
      exact haccount (hnew ▸ hmem)
    · exact h.accounts old hold
  length q hq := by
    obtain ⟨old, hold, rfl⟩ := Lib.mem_writeKey.mp hq
    split_ifs with hid
    · have hsame : old = p := List.inj_on_of_nodup_map h.ids hold hp hid
      subst hsame
      show (old.signatures ++ [signature]).length ≤ required
      rw [List.length_append]
      exact hlength
    · exact h.length old hold

end Petitions

namespace GuildMgr

variable {s : GuildMgr} {id guid : ℕ}

/-- The guild that is found is one of the guilds, under its id. -/
theorem getGuildById_some {g : Roster} (h : s.getGuildById id = some g) :
    g ∈ s.guilds ∧ g.id = id :=
  ⟨List.mem_of_find?_eq_some h, by simpa using List.find?_some h⟩

/-- The petition that is found is one of the petitions, under its id. -/
theorem getPetitionById_some {p : Petition} (h : s.getPetitionById id = some p) :
    p ∈ s.petitions ∧ p.id = id :=
  ⟨List.mem_of_find?_eq_some h, by simpa using List.find?_some h⟩

/-- The player who is found is one of the players, under his guid. -/
theorem findPlayer_some {p : Player} (h : s.findPlayer guid = some p) :
    p ∈ s.players ∧ p.guid = guid :=
  ⟨List.mem_of_find?_eq_some h, by simpa using List.find?_some h⟩

/-- Who is among the players is found. -/
theorem findPlayer_ne_none : s.findPlayer guid ≠ none ↔ guid ∈ s.players.map Player.guid := by
  simp [findPlayer]

/-- A player after a character has joined. -/
theorem mem_join {p : Player} (h : p ∈ (s.join id guid).players) :
    ∃ old ∈ s.players, p.guid = old.guid ∧
      p.guildId = if old.guid = guid then id else old.guildId := by
  obtain ⟨old, hold, rfl⟩ := Lib.mem_writeKey.mp h
  refine ⟨old, hold, ?_, ?_⟩
  · split_ifs <;> rfl
  · split_ifs <;> rfl

/-- A player after a member is taken out. -/
theorem mem_eraseMember {p : Player} (h : p ∈ (s.eraseMember id guid).players) :
    ∃ old ∈ s.players, p.guid = old.guid ∧ (old.guid ≠ guid → p = old) := by
  obtain ⟨old, hold, rfl⟩ := Lib.mem_writeKey.mp h
  refine ⟨old, hold, ?_, ?_⟩
  · split_ifs <;> rfl
  · intro hne
    rw [if_neg hne]

/-- The members after one has joined. -/
theorem memberOf_join (hguild : ∃ g ∈ s.guilds, g.id = id) {id' other : ℕ} :
    (s.join id guid).MemberOf id' other ↔ s.MemberOf id' other ∨ id' = id ∧ other = guid := by
  constructor
  · rintro ⟨_, hmem, hid, hother⟩
    obtain ⟨g, hg, rfl⟩ := Lib.mem_writeKey.mp hmem
    by_cases hgid : g.id = id
    · rw [if_pos hgid] at hid hother
      have hother : other ∈ if guid ∈ g.members then g.members else g.members ++ [guid] := hother
      split_ifs at hother
      · exact Or.inl ⟨g, hg, hid, hother⟩
      · rcases List.mem_append.mp hother with hold | hnew
        · exact Or.inl ⟨g, hg, hid, hold⟩
        · exact Or.inr ⟨hid.symm.trans hgid, List.mem_singleton.mp hnew⟩
    · rw [if_neg hgid] at hid hother
      exact Or.inl ⟨g, hg, hid, hother⟩
  · rintro (⟨g, hg, rfl, hother⟩ | ⟨rfl, rfl⟩)
    · refine ⟨_, Lib.mem_writeKey.mpr ⟨g, hg, rfl⟩, ?_, ?_⟩
      · split_ifs <;> rfl
      · by_cases hgid : g.id = id
        · rw [if_pos hgid]
          show other ∈ if guid ∈ g.members then g.members else g.members ++ [guid]
          split_ifs
          · exact hother
          · exact List.mem_append_left _ hother
        · rw [if_neg hgid]
          exact hother
    · obtain ⟨g, hg, rfl⟩ := hguild
      refine ⟨_, Lib.mem_writeKey.mpr ⟨g, hg, rfl⟩, ?_, ?_⟩
      · rw [if_pos rfl]
      · rw [if_pos rfl]
        show other ∈ if other ∈ g.members then g.members else g.members ++ [other]
        by_cases hin : other ∈ g.members
        · rwa [if_pos hin]
        · rw [if_neg hin]
          exact List.mem_append_right _ (List.mem_singleton_self other)

/-- The members after one is taken out. -/
theorem memberOf_eraseMember {id' other : ℕ} :
    (s.eraseMember id guid).MemberOf id' other ↔
      s.MemberOf id' other ∧ ¬(id' = id ∧ other = guid) := by
  constructor
  · rintro ⟨_, hmem, hid, hother⟩
    obtain ⟨g, hg, rfl⟩ := Lib.mem_writeKey.mp hmem
    by_cases hgid : g.id = id
    · rw [if_pos hgid] at hid hother
      have hother : other ∈ g.members.filter (· ≠ guid) := hother
      obtain ⟨hold, hne⟩ := List.mem_filter.mp hother
      exact ⟨⟨g, hg, hid, hold⟩, fun h => of_decide_eq_true hne h.2⟩
    · rw [if_neg hgid] at hid hother
      exact ⟨⟨g, hg, hid, hother⟩, fun h => hgid (hid.trans h.1)⟩
  · rintro ⟨⟨g, hg, rfl, hother⟩, hnot⟩
    refine ⟨_, Lib.mem_writeKey.mpr ⟨g, hg, rfl⟩, ?_, ?_⟩
    · split_ifs <;> rfl
    · split_ifs with hgid
      · show other ∈ g.members.filter (· ≠ guid)
        exact List.mem_filter.mpr ⟨hother, decide_eq_true fun h => hnot ⟨hgid, h⟩⟩
      · exact hother

/-- The members when a guild is rewritten, but not its members. -/
theorem memberOf_writeGuild {f : Roster → Roster}
    (hf : ∀ g, (f g).id = g.id ∧ (f g).members = g.members) {id' other : ℕ} :
    (s.writeGuild id f).MemberOf id' other ↔ s.MemberOf id' other := by
  constructor
  · rintro ⟨_, hmem, hid, hother⟩
    obtain ⟨g, hg, rfl⟩ := Lib.mem_writeKey.mp hmem
    split_ifs at hid hother
    · exact ⟨g, hg, (hf g).1.symm.trans hid, (hf g).2 ▸ hother⟩
    · exact ⟨g, hg, hid, hother⟩
  · rintro ⟨g, hg, rfl, hother⟩
    refine ⟨_, Lib.mem_writeKey.mpr ⟨g, hg, rfl⟩, ?_, ?_⟩
    · split_ifs
      · exact (hf g).1
      · rfl
    · split_ifs
      · exact (hf g).2.symm ▸ hother
      · exact hother

end GuildMgr

namespace Registered

variable {s : GuildMgr} {id guid : ℕ} {g : Roster}

/-- A member has a guild with an id other than 0. -/
theorem pos (h : Registered s) (hguild : s.guid2guild guid = some id) : 0 < id := by
  obtain ⟨g, hg, rfl, -⟩ := (h.index guid id).mp hguild
  exact (h.fresh g hg).1

/-- Who is in the members of a guild has it in the index. -/
theorem index_of_mem (h : Registered s) (hg : g ∈ s.guilds) (hmem : guid ∈ g.members) :
    s.guid2guild guid = some g.id :=
  (h.index guid g.id).mpr ⟨g, hg, rfl, hmem⟩

/-- Who is in the index under a guild is one of its members. -/
theorem mem_of_index (h : Registered s) (hg : g ∈ s.guilds)
    (hguild : s.guid2guild guid = some g.id) : guid ∈ g.members := by
  obtain ⟨g', hg', hid, hmem⟩ := (h.index guid g.id).mp hguild
  rwa [List.inj_on_of_nodup_map h.ids hg' hg hid] at hmem

/-- A player who carries no guild is in none. -/
theorem index_none (h : Registered s) {p : Player} (hp : p ∈ s.players) (hnone : p.guildId = 0) :
    s.guid2guild p.guid = none := by
  cases hguild : s.guid2guild p.guid with
  | none => rfl
  | some id =>
      have hid := h.sessions p hp id hguild
      have hpos := h.pos hguild
      omega

/-- A player is in no other guild than the one he carries. -/
theorem index_eq (h : Registered s) {p : Player} (hp : p ∈ s.players) {id' : ℕ}
    (hguild : s.guid2guild p.guid = some id') : id' = p.guildId :=
  (h.sessions p hp id' hguild).symm

/-- Taking a signature out. -/
theorem removePetitionSignature (h : Registered s) (guid : ℕ) :
    Registered (s.removePetitionSignature guid) :=
  { h with
    signed := h.signed.remove guid
    free := fun other hother => by
      have hother : other ∈ signers (removeSignature guid s.petitions) := hother
      rw [signers_removeSignature] at hother
      exact h.free other (List.mem_of_mem_erase hother) }

/-- A character who is in no guild, is not logging in and has no signature joins a guild. -/
theorem join (h : Registered s) (hguild : ∃ g ∈ s.guilds, g.id = id)
    (hnone : s.guid2guild guid = none) (hlogin : ∀ l ∈ s.logins, l.1 ≠ guid)
    (hsign : guid ∉ signers s.petitions) : Registered (s.join id guid) where
  ids := by
    have hkeys : (s.join id guid).guilds.map Roster.id = s.guilds.map Roster.id :=
      Lib.writeKey_keys fun _ _ => rfl
    rw [hkeys]
    exact h.ids
  fresh g hg := by
    obtain ⟨old, hold, rfl⟩ := Lib.mem_writeKey.mp hg
    split_ifs <;> exact h.fresh old hold
  next := h.next
  index other id' := by
    rw [GuildMgr.memberOf_join hguild]
    show Function.update s.guid2guild guid (some id) other = some id' ↔ _
    by_cases hother : other = guid
    · subst hother
      rw [Function.update_self, ← h.index, hnone]
      simp [eq_comm]
    · rw [Function.update_of_ne hother, ← h.index]
      simp [hother]
  sessions p hp id' hid' := by
    obtain ⟨old, hold, hsame, hp⟩ := GuildMgr.mem_join hp
    have hid' : Function.update s.guid2guild guid (some id) p.guid = some id' := hid'
    rw [hp]
    by_cases hguid : old.guid = guid
    · rw [hsame, hguid, Function.update_self] at hid'
      rw [if_pos hguid]
      exact Option.some.inj hid'
    · rw [hsame, Function.update_of_ne hguid] at hid'
      rw [if_neg hguid]
      exact h.sessions old hold id' hid'
  logins l hl id' hid' := by
    have hid' : Function.update s.guid2guild guid (some id) l.1 = some id' := hid'
    rw [Function.update_of_ne (hlogin l hl)] at hid'
    exact h.logins l hl id' hid'
  apart l hl p hp := by
    obtain ⟨old, hold, hsame, -⟩ := GuildMgr.mem_join hp
    rw [hsame]
    exact h.apart l hl old hold
  signed := h.signed
  free other hother := by
    -- who signs is in no guild, and he has not signed
    have hne : other ≠ guid := fun heq => hsign (heq ▸ hother)
    show Function.update s.guid2guild guid (some id) other = none
    rw [Function.update_of_ne hne]
    exact h.free other hother

/-- A character who is in no other guild is taken out of one. -/
theorem eraseMember (h : Registered s)
    (hin : ∀ id', s.guid2guild guid = some id' → id' = id) :
    Registered (s.eraseMember id guid) where
  ids := by
    have hkeys : (s.eraseMember id guid).guilds.map Roster.id = s.guilds.map Roster.id :=
      Lib.writeKey_keys fun _ _ => rfl
    rw [hkeys]
    exact h.ids
  fresh g hg := by
    obtain ⟨old, hold, rfl⟩ := Lib.mem_writeKey.mp hg
    split_ifs <;> exact h.fresh old hold
  next := h.next
  index other id' := by
    rw [GuildMgr.memberOf_eraseMember, ← h.index]
    show Function.update s.guid2guild guid none other = some id' ↔ _
    by_cases hother : other = guid
    · subst hother
      rw [Function.update_self]
      constructor
      · intro hnone
        cases hnone
      · rintro ⟨hguild, hnot⟩
        -- he was in no other guild, so the index has nothing of him now
        exact absurd ⟨hin id' hguild, rfl⟩ hnot
    · rw [Function.update_of_ne hother]
      simp [hother]
  sessions p hp id' hid' := by
    obtain ⟨old, hold, hsame, hp⟩ := GuildMgr.mem_eraseMember hp
    have hid' : Function.update s.guid2guild guid none p.guid = some id' := hid'
    by_cases hguid : old.guid = guid
    · rw [hsame, hguid, Function.update_self] at hid'
      cases hid'
    · rw [hsame, Function.update_of_ne hguid] at hid'
      rw [hp hguid]
      exact h.sessions old hold id' hid'
  logins l hl id' hid' := by
    have hid' : Function.update s.guid2guild guid none l.1 = some id' := hid'
    by_cases hguid : l.1 = guid
    · rw [hguid, Function.update_self] at hid'
      cases hid'
    · rw [Function.update_of_ne hguid] at hid'
      exact h.logins l hl id' hid'
  apart l hl p hp := by
    obtain ⟨old, hold, hsame, -⟩ := GuildMgr.mem_eraseMember hp
    rw [hsame]
    exact h.apart l hl old hold
  signed := h.signed
  free other hother := by
    show Function.update s.guid2guild guid none other = none
    by_cases hother' : other = guid
    · rw [hother', Function.update_self]
    · rw [Function.update_of_ne hother']
      exact h.free other hother

/-- A guild is rewritten, but not its members. -/
theorem writeGuild (h : Registered s) {f : Roster → Roster}
    (hf : ∀ g, (f g).id = g.id ∧ (f g).members = g.members) : Registered (s.writeGuild id f) :=
  { h with
    ids := by
      have hkeys : (s.writeGuild id f).guilds.map Roster.id = s.guilds.map Roster.id :=
        Lib.writeKey_keys fun g _ => (hf g).1
      rw [hkeys]
      exact h.ids
    fresh := fun g hg => by
      obtain ⟨old, hold, rfl⟩ := Lib.mem_writeKey.mp hg
      split_ifs
      · rw [(hf old).1]
        exact h.fresh old hold
      · exact h.fresh old hold
    index := fun guid id' => by
      rw [GuildMgr.memberOf_writeGuild hf]
      exact h.index guid id' }

/-- A guild without members is taken out. -/
theorem eraseGuild (h : Registered s) (hempty : ∀ guid, s.guid2guild guid ≠ some id) :
    Registered { s with guilds := Lib.eraseKey Roster.id id s.guilds } :=
  { h with
    ids := Lib.eraseKey_nodup h.ids
    fresh := fun g hg => h.fresh g (Lib.mem_eraseKey.mp hg).1
    index := fun guid id' => by
      rw [h.index]
      constructor
      · rintro ⟨g, hg, rfl, hmem⟩
        refine ⟨g, Lib.mem_eraseKey.mpr ⟨hg, fun hid => ?_⟩, rfl, hmem⟩
        exact hempty guid (hid ▸ h.index_of_mem hg hmem)
      · rintro ⟨g, hg, hid, hmem⟩
        exact ⟨g, (Lib.mem_eraseKey.mp hg).1, hid, hmem⟩ }

end Registered

namespace GuildMgr

variable {s : GuildMgr} {id guid : ℕ} {g : Roster}

/-- The index after a list of members is taken out. -/
theorem guid2guild_foldl (id : ℕ) (members : List ℕ) (s : GuildMgr) (other : ℕ) :
    (members.foldl (fun s guid => s.eraseMember id guid) s).guid2guild other =
      if other ∈ members then none else s.guid2guild other := by
  induction members generalizing s with
  | nil => rfl
  | cons guid rest ih =>
      rw [List.foldl_cons, ih]
      show (if other ∈ rest then none else Function.update s.guid2guild guid none other) = _
      by_cases hrest : other ∈ rest
      · rw [if_pos hrest, if_pos (List.mem_cons_of_mem _ hrest)]
      · by_cases hguid : other = guid
        · rw [if_neg hrest, hguid, Function.update_self, if_pos List.mem_cons_self]
        · rw [if_neg hrest, Function.update_of_ne hguid, if_neg]
          simp [hrest, hguid]

/-- Who leaves a guild, and what is left as it was. -/
structure Departed (id : ℕ) (s s' : GuildMgr) : Prop where
  logins : s'.logins = s.logins
  players : s'.players.map Player.guid = s.players.map Player.guid
  others : ∀ id', id' ≠ id → (∃ g ∈ s.guilds, g.id = id') → ∃ g ∈ s'.guilds, g.id = id'
  gone : ∀ guid, s.guid2guild guid = none → s'.guid2guild guid = none

namespace Departed

variable {t u : GuildMgr}

theorem refl (id : ℕ) (s : GuildMgr) : Departed id s s := ⟨rfl, rfl, fun _ _ h => h, fun _ h => h⟩

theorem trans (h : Departed id s t) (h' : Departed id t u) : Departed id s u where
  logins := h'.logins.trans h.logins
  players := h'.players.trans h.players
  others id' hne hguild := h'.others id' hne (h.others id' hne hguild)
  gone guid hnone := h'.gone guid (h.gone guid hnone)

/-- Rewriting a guild. -/
theorem writeGuild {f : Roster → Roster} :
    Departed id s (s.writeGuild id f) where
  logins := rfl
  players := rfl
  others id' hne hguild := by
    obtain ⟨g, hg, rfl⟩ := hguild
    exact ⟨g, Lib.mem_writeKey.mpr ⟨g, hg, if_neg hne⟩, rfl⟩
  gone _ hnone := hnone

/-- Taking a member out. -/
theorem eraseMember : Departed id s (s.eraseMember id guid) where
  logins := rfl
  players := by
    refine Lib.writeKey_keys fun p _ => ?_
    split_ifs <;> rfl
  others id' hne hguild := by
    obtain ⟨g, hg, rfl⟩ := hguild
    exact ⟨g, Lib.mem_writeKey.mpr ⟨g, hg, if_neg hne⟩, rfl⟩
  gone other hnone := by
    show Function.update s.guid2guild guid none other = none
    by_cases hother : other = guid
    · rw [hother, Function.update_self]
    · rw [Function.update_of_ne hother, hnone]

/-- Taking a list of members out. -/
theorem foldl (members : List ℕ) (s : GuildMgr) :
    Departed id s (members.foldl (fun s guid => s.eraseMember id guid) s) := by
  induction members generalizing s with
  | nil => exact refl id s
  | cons guid rest ih => exact eraseMember.trans (ih _)

/-- Disbanding a guild. -/
theorem disband : Departed g.id s (s.disband g) := by
  have h : Departed g.id s (g.members.foldl (fun s guid => s.eraseMember g.id guid) s) :=
    foldl g.members s
  refine ⟨h.logins, h.players, fun id' hne hguild => ?_, h.gone⟩
  obtain ⟨g', hg', rfl⟩ := h.others id' hne hguild
  exact ⟨g', Lib.mem_eraseKey.mpr ⟨hg', hne⟩, rfl⟩

end Departed

end GuildMgr

namespace Registered

variable {s : GuildMgr} {id guid : ℕ} {g : Roster}

/-- Members of one guild are taken out of it, one after the other. -/
theorem foldl_eraseMember (h : Registered s) {members : List ℕ}
    (hin : ∀ guid ∈ members, ∀ id', s.guid2guild guid = some id' → id' = id) :
    Registered (members.foldl (fun s guid => s.eraseMember id guid) s) := by
  induction members generalizing s with
  | nil => exact h
  | cons guid rest ih =>
      refine ih (h.eraseMember (hin guid List.mem_cons_self)) fun other hother id' hid' => ?_
      have hid' : Function.update s.guid2guild guid none other = some id' := hid'
      by_cases hguid : other = guid
      · rw [hguid, Function.update_self] at hid'
        cases hid'
      · rw [Function.update_of_ne hguid] at hid'
        exact hin other (List.mem_cons_of_mem _ hother) id' hid'

/-- A guild is disbanded. -/
theorem disband (h : Registered s) (hg : g ∈ s.guilds) : Registered (s.disband g) := by
  refine (h.foldl_eraseMember fun guid hguid id' hid' => ?_).eraseGuild fun guid hguid => ?_
  · have hindex := h.index_of_mem hg hguid
    rw [hindex] at hid'
    exact (Option.some.inj hid').symm
  · rw [GuildMgr.guid2guild_foldl] at hguid
    split_ifs at hguid with hmem
    exact hmem (h.mem_of_index hg hguid)

/-- A character who is in no other guild leaves one. -/
theorem delMember (h : Registered s)
    (hin : ∀ id', s.guid2guild guid = some id' → id' = g.id) (best : Option ℕ) :
    Registered (s.delMember g guid best).1 := by
  unfold GuildMgr.delMember
  split
  · cases best with
    | none => exact h
    | some leader =>
        have hleader : Registered (s.writeGuild g.id fun g => { g with leaderGuid := leader }) :=
          h.writeGuild fun _ => ⟨rfl, rfl⟩
        exact hleader.eraseMember hin
  · exact h.eraseMember hin

/-- A character leaves a guild, which is disbanded when he asks for it. -/
theorem delMemberOrDisband (h : Registered s)
    (hin : ∀ id', s.guid2guild guid = some id' → id' = g.id) (best : Option ℕ) :
    Registered (s.delMemberOrDisband g guid best) := by
  have hdel := h.delMember hin best
  unfold GuildMgr.delMemberOrDisband
  split
  · next s' hs' => rwa [hs'] at hdel
  · next s' hs' =>
    rw [hs'] at hdel
    split
    · exact hdel
    · next g' hg' => exact hdel.disband (GuildMgr.getGuildById_some hg').1

end Registered

namespace GuildMgr

variable {s : GuildMgr} {guid : ℕ} {g : Roster}

/-- Leaving a guild leaves the rest as it was. -/
theorem departed_delMember (best : Option ℕ) : Departed g.id s (s.delMember g guid best).1 := by
  unfold delMember
  split
  · cases best with
    | none => exact Departed.refl _ _
    | some leader =>
        have hleader : Departed g.id s (s.writeGuild g.id fun g =>
          { g with leaderGuid := leader }) := Departed.writeGuild
        exact hleader.trans Departed.eraseMember
  · exact Departed.eraseMember

/-- Leaving a guild, also when it is disbanded, leaves the rest as it was. -/
theorem departed_delMemberOrDisband (best : Option ℕ) :
    Departed g.id s (s.delMemberOrDisband g guid best) := by
  have hdel : Departed g.id s (s.delMember g guid best).1 := departed_delMember best
  unfold delMemberOrDisband
  split
  · next s' hs' => rwa [hs'] at hdel
  · next s' hs' =>
    rw [hs'] at hdel
    split
    · exact hdel
    · next g' hg' =>
      have hdisband : Departed g'.id s' (s'.disband g') := Departed.disband
      rw [(getGuildById_some hg').2] at hdisband
      exact hdel.trans hdisband

/-- Who is not the leader is in no guild after he has left. -/
theorem guid2guild_delMemberOrDisband (hleader : g.leaderGuid ≠ guid) (best : Option ℕ) :
    (s.delMemberOrDisband g guid best).guid2guild guid = none := by
  have hdel : (s.delMember g guid best).1.guid2guild guid = none := by
    unfold delMember
    rw [if_neg hleader]
    exact Function.update_self ..
  unfold delMemberOrDisband
  split
  · next s' hs' => rwa [hs'] at hdel
  · next s' hs' =>
    rw [hs'] at hdel
    split
    · exact hdel
    · exact Departed.disband.gone guid hdel

end GuildMgr

namespace Registered

variable {s : GuildMgr} {id guid : ℕ} {g : Roster}

/-- A character is taken into a guild. Who has no session has to be in no other guild, and must
not be logging in. -/
theorem addMember (h : Registered s) (hguild : ∃ g' ∈ s.guilds, g'.id = g.id)
    (hoffline : s.findPlayer guid = none → guid ∉ g.members →
      s.guid2guild guid = none ∧ ∀ l ∈ s.logins, l.1 ≠ guid) :
    Registered (s.addMember g guid).1 := by
  have hremoved := h.removePetitionSignature guid
  unfold GuildMgr.addMember
  split
  · next p hp =>
    obtain ⟨hmem, rfl⟩ := GuildMgr.findPlayer_some hp
    split_ifs with hid
    · exact h
    · have hnone := h.index_none hmem (not_not.mp hid)
      exact hremoved.join hguild hnone (fun l hl heq => h.apart l hl p hmem heq.symm)
        (h.signed.removed p.guid)
  · next hp =>
    split_ifs with hmem
    · exact h
    · obtain ⟨hnone, hlogin⟩ := hoffline hp hmem
      exact hremoved.join hguild hnone hlogin (h.signed.removed guid)
    · exact hremoved

/-- A guild without members is founded. -/
theorem addGuild (h : Registered s) (name : Text) (leader : ℕ) (pending : List RowStatement) :
    Registered { s with
      guilds := s.guilds ++ [⟨s.nextGuildId, name, leader, []⟩]
      nextGuildId := s.nextGuildId + 1
      pending } :=
  { h with
    ids := by
      rw [List.map_append]
      refine List.nodup_append.mpr ⟨h.ids, List.nodup_singleton _, ?_⟩
      rintro _ hid _ hnew rfl
      obtain ⟨g, hg, hgid⟩ := List.mem_map.mp hid
      have hlt := (h.fresh g hg).2
      have hnew' : _ = s.nextGuildId := List.mem_singleton.mp hnew
      omega
    fresh := fun g hg => by
      show 0 < g.id ∧ g.id < s.nextGuildId + 1
      rcases List.mem_append.mp hg with hold | hnew
      · have hlt := h.fresh g hold
        omega
      · rw [List.mem_singleton.mp hnew]
        exact ⟨h.next, Nat.lt_succ_self _⟩
    next := Nat.succ_pos _
    index := fun guid id => by
      rw [h.index]
      constructor
      · rintro ⟨g, hg, hmem⟩
        exact ⟨g, List.mem_append_left _ hg, hmem⟩
      · rintro ⟨g, hg, hid, hmem⟩
        rcases List.mem_append.mp hg with hold | hnew
        · exact ⟨g, hold, hid, hmem⟩
        · rw [List.mem_singleton.mp hnew] at hmem
          cases hmem }

/-- An id is used up. -/
theorem skipGuildId (h : Registered s) (pending : List RowStatement) :
    Registered { s with nextGuildId := s.nextGuildId + 1, pending } :=
  { h with
    fresh := fun g hg => ⟨(h.fresh g hg).1, Nat.lt_succ_of_lt (h.fresh g hg).2⟩
    next := Nat.succ_pos _ }

end Registered

namespace GuildMgr

variable {s : GuildMgr} {guid : ℕ} {g : Roster}

/-- Taking a character in changes his guild only. -/
theorem guid2guild_addMember (other : ℕ) :
    (s.addMember g guid).1.guid2guild other = s.guid2guild other ∨
      (s.addMember g guid).1.guid2guild other = some g.id := by
  have hjoin : ((s.removePetitionSignature guid).join g.id guid).guid2guild other =
        s.guid2guild other ∨
      ((s.removePetitionSignature guid).join g.id guid).guid2guild other = some g.id := by
    show Function.update s.guid2guild guid (some g.id) other = _ ∨
      Function.update s.guid2guild guid (some g.id) other = _
    by_cases hother : other = guid
    · rw [hother, Function.update_self]
      exact Or.inr rfl
    · rw [Function.update_of_ne hother]
      exact Or.inl rfl
  unfold addMember
  split
  · split_ifs
    · exact Or.inl rfl
    · exact hjoin
  · split_ifs
    · exact Or.inl rfl
    · exact hjoin
    · exact Or.inl rfl

/-- Taking a character in is not his login. -/
theorem logins_addMember : (s.addMember g guid).1.logins = s.logins := by
  unfold addMember
  split
  · split_ifs <;> rfl
  · split_ifs <;> rfl

end GuildMgr

namespace Registered

variable {s : GuildMgr} {id guid : ℕ} {g : Roster}

/-- Those who signed are taken into the guild of an id, if they are in no other and none of them
is logging in. -/
theorem foldl_addMember (h : Registered s) {signers : List ℕ}
    (hfree : ∀ signer ∈ signers, s.guid2guild signer = none ∨ s.guid2guild signer = some id)
    (hlogin : ∀ signer ∈ signers, ∀ l ∈ s.logins, l.1 ≠ signer) :
    Registered (signers.foldl (fun s signer =>
      match s.getGuildById id with
      | none => s
      | some g => (s.addMember g signer).1) s) := by
  induction signers generalizing s with
  | nil => exact h
  | cons signer rest ih =>
      rw [List.foldl_cons]
      cases hfind : s.getGuildById id with
      | none =>
          exact ih h (fun x hx => hfree x (List.mem_cons_of_mem _ hx))
            fun x hx => hlogin x (List.mem_cons_of_mem _ hx)
      | some g =>
          obtain ⟨hg, rfl⟩ := GuildMgr.getGuildById_some hfind
          refine ih (h.addMember ⟨g, hg, rfl⟩ fun _ hnot => ⟨?_, ?_⟩) ?_ ?_
          · exact (hfree signer List.mem_cons_self).resolve_right fun hin =>
              hnot (h.mem_of_index hg hin)
          · exact hlogin signer List.mem_cons_self
          · intro x hx
            rcases GuildMgr.guid2guild_addMember x with hsame | hin
            · rw [hsame]
              exact hfree x (List.mem_cons_of_mem _ hx)
            · exact Or.inr hin
          · intro x hx
            rw [GuildMgr.logins_addMember]
            exact hlogin x (List.mem_cons_of_mem _ hx)

/-- The leader of a new guild joins it, and then those who signed. -/
theorem found (h : Registered s) (hg : g ∈ s.guilds) {leader : ℕ}
    (hleader : s.findPlayer leader ≠ none) {signers : List ℕ}
    (hfree : ∀ signer ∈ signers, s.guid2guild signer = none)
    (hlogin : ∀ signer ∈ signers, ∀ l ∈ s.logins, l.1 ≠ signer) :
    Registered (signers.foldl (fun s signer =>
      match s.getGuildById g.id with
      | none => s
      | some g => (s.addMember g signer).1) (s.addMember g leader).1) := by
  have hjoined : Registered (s.addMember g leader).1 :=
    h.addMember ⟨g, hg, rfl⟩ fun hnone => absurd hnone hleader
  refine hjoined.foldl_addMember (fun signer hsigner => ?_) fun signer hsigner => ?_
  · rcases GuildMgr.guid2guild_addMember signer with hsame | hin
    · exact Or.inl (hsame.trans (hfree signer hsigner))
    · exact Or.inr hin
  · rw [GuildMgr.logins_addMember]
    exact hlogin signer hsigner

/-- A guild is founded by a player, with members who are in no guild and not logging in. -/
theorem create (h : Registered s) (name : Text) {leader : ℕ} (hleader : s.findPlayer leader ≠ none)
    {signers : List ℕ} (hfree : ∀ signer ∈ signers, s.guid2guild signer = none)
    (hlogin : ∀ signer ∈ signers, ∀ l ∈ s.logins, l.1 ≠ signer) :
    Registered (s.create name leader signers) := by
  have hfound := (h.addGuild name leader (s.pending ++ [.deleteGuild s.nextGuildId])).found
    (List.mem_append_right _ (List.mem_singleton_self _)) hleader hfree hlogin
  unfold GuildMgr.create
  split
  · exact h
  · dsimp only
    split
    · exact h.skipGuildId _
    · next founded heq => rwa [heq] at hfound

/-- A player is rewritten, but not the guild he carries. -/
theorem writePlayer (h : Registered s) {f : Player → Player}
    (hf : ∀ p, (f p).guid = p.guid ∧ (f p).guildId = p.guildId) :
    Registered (s.writePlayer guid f) :=
  { h with
    sessions := fun p hp id hid => by
      obtain ⟨old, hold, rfl⟩ := Lib.mem_writeKey.mp hp
      have hid : s.guid2guild _ = some id := hid
      split_ifs at hid ⊢
      · rw [(hf old).1] at hid
        rw [(hf old).2]
        exact h.sessions old hold id hid
      · exact h.sessions old hold id hid
    apart := fun l hl p hp => by
      obtain ⟨old, hold, rfl⟩ := Lib.mem_writeKey.mp hp
      split_ifs
      · rw [(hf old).1]
        exact h.apart l hl old hold
      · exact h.apart l hl old hold }

/-- A petition is deleted. -/
theorem deletePetition (h : Registered s) (id : ℕ) : Registered (s.deletePetition id) :=
  { h with
    signed := h.signed.delete id
    free := fun guid hguid => h.free guid ((signers_eraseKey id).subset hguid) }

/-- A character in no guild signs. -/
theorem addPetitionSignature (h : Registered s) (hnone : s.guid2guild guid = none) :
    Registered (s.addPetitionSignature id guid) := by
  have hremoved := h.removePetitionSignature guid
  unfold GuildMgr.addPetitionSignature
  split
  · exact h
  · next petition hfind =>
    obtain ⟨hmem, rfl⟩ := GuildMgr.getPetitionById_some hfind
    by_cases hguard : petition.signatures.length ≥ s.getPetitionSignsRequired ∨
        petition.signedByAccount (s.account guid) ∨ petition.signedBy guid
    · rw [if_pos hguard]
      exact h
    · rw [if_neg hguard]
      dsimp only
      split
      · exact hremoved
      · -- the petition as it is after an older signature has gone
        have hid : petition.id ∈ (removeSignature guid s.petitions).map Petition.id := by
          rw [removeSignature_ids]
          exact List.mem_map_of_mem hmem
        obtain ⟨moved, hmoved, hmid⟩ := List.mem_map.mp hid
        obtain ⟨old, hold, hsame, hsub⟩ := mem_removeSignature hmoved
        have hold : old = petition :=
          List.inj_on_of_nodup_map h.signed.ids hold hmem (hsame.symm.trans hmid)
        subst hold
        obtain ⟨hlength, hsigned⟩ := not_or.mp hguard
        obtain ⟨haccount, -⟩ := not_or.mp hsigned
        have hnotin : s.account guid ∉ moved.signatures.map Signature.account := by
          intro hin
          obtain ⟨signature, hsignature, heq⟩ := List.mem_map.mp ((hsub.map _).subset hin)
          refine haccount (List.any_eq_true.mpr ⟨signature, hsignature, ?_⟩)
          exact decide_eq_true heq
        have hshort : moved.signatures.length < s.getPetitionSignsRequired :=
          Nat.lt_of_le_of_lt hsub.length_le (Nat.not_le.mp hlength)
        have hsigned : Signed s.getPetitionSignsRequired s.nextPetitionId
            (Lib.writeKey Petition.id moved.id (addNewSignature ⟨guid, s.account guid⟩)
              (removeSignature guid s.petitions)) :=
          hremoved.signed.add hmoved (h.signed.removed guid) hnotin hshort
        rw [hmid] at hsigned
        refine { h with signed := hsigned, free := fun other hother => ?_ }
        have hperm := signers_add hremoved.signed.ids hmoved ⟨guid, s.account guid⟩
        rw [hmid] at hperm
        rcases List.mem_cons.mp (hperm.subset hother) with rfl | hother
        · exact hnone
        · exact hremoved.free other hother

section Requests

variable {p : Player}

/-- A guild is created without a petition. -/
theorem handleGuildCreate (h : Registered s) (hp : p ∈ s.players) (name : Text) :
    Registered (s.handleGuildCreate p name) := by
  unfold GuildMgr.handleGuildCreate
  split
  · exact h
  · refine h.create name (GuildMgr.findPlayer_ne_none.mpr (List.mem_map_of_mem hp)) ?_ ?_
    · exact fun signer hsigner => absurd hsigner List.not_mem_nil
    · exact fun signer hsigner => absurd hsigner List.not_mem_nil

/-- A charter is bought. -/
theorem handlePetitionBuy (h : Registered s) (p : Player) (name : Text) :
    Registered (s.handlePetitionBuy p name) := by
  unfold GuildMgr.handlePetitionBuy
  split_ifs
  · exact h
  · exact h
  · exact h
  · refine { h with signed := h.signed.buy p.guid name, free := fun guid hguid => ?_ }
    refine h.free guid ?_
    simpa [signers] using hguid

/-- A charter is signed. -/
theorem handlePetitionSign (h : Registered s) (hp : p ∈ s.players) (id : ℕ) :
    Registered (s.handlePetitionSign p id) := by
  unfold GuildMgr.handlePetitionSign
  split
  · exact h
  · split_ifs with hfull howner hguild
    · exact h
    · exact h
    · exact h
    · exact h
    · exact h
    · exact h
    · exact h.addPetitionSignature (h.index_none hp (not_not.mp hguild))

/-- A charter is turned in. -/
theorem handleTurnInPetition (h : Registered s) (hp : p ∈ s.players) (id : ℕ)
    (hlogin : p.guildId = 0 → ∀ petition, s.getPetitionById id = some petition →
      p.guid = petition.ownerGuid → petition.signatures.length = s.minPetitionSigns →
      (s.guilds.any fun g => g.name = petition.name) = false →
      ∀ signature ∈ petition.signatures, ∀ l ∈ s.logins, l.1 ≠ signature.player) :
    Registered (s.handleTurnInPetition p id) := by
  unfold GuildMgr.handleTurnInPetition
  split
  · exact h
  · next petition hfind =>
    split_ifs with hguild howner hsigns hname
    · exact h
    · exact h
    · exact h
    · exact h
    · have hclear := hlogin (not_not.mp hguild) petition hfind (not_not.mp howner)
        (not_not.mp hsigns) (Bool.eq_false_iff.mpr hname)
      refine (h.create petition.name ?_ ?_ ?_).deletePetition id
      · exact GuildMgr.findPlayer_ne_none.mpr (List.mem_map_of_mem hp)
      · intro signer hsigner
        exact h.free signer (List.mem_flatMap.mpr
          ⟨petition, (GuildMgr.getPetitionById_some hfind).1, hsigner⟩)
      · intro signer hsigner l hl
        obtain ⟨signature, hsignature, rfl⟩ := List.mem_map.mp hsigner
        exact hclear signature hsignature l hl

/-- A player is invited. -/
theorem handleGuildInvite (h : Registered s) (p : Player) (target : ℕ) :
    Registered (s.handleGuildInvite p target) := by
  unfold GuildMgr.handleGuildInvite
  split
  · split
    · exact h
    · exact h.writePlayer fun _ => ⟨rfl, rfl⟩
  · exact h

/-- An invitation is accepted. -/
theorem handleGuildAccept (h : Registered s) (hp : p ∈ s.players) :
    Registered (s.handleGuildAccept p) := by
  have honline : s.findPlayer p.guid ≠ none :=
    GuildMgr.findPlayer_ne_none.mpr (List.mem_map_of_mem hp)
  unfold GuildMgr.handleGuildAccept
  split
  · exact h
  · next g hfind =>
    split
    · exact h
    · exact h.addMember ⟨g, (GuildMgr.getGuildById_some hfind).1, rfl⟩
        fun hnone => absurd hnone honline

/-- An invitation is declined. -/
theorem handleGuildDecline (h : Registered s) (p : Player) :
    Registered (s.handleGuildDecline p) := by
  unfold GuildMgr.handleGuildDecline
  split
  · exact h
  · exact h.writePlayer fun _ => ⟨rfl, rfl⟩

/-- A member is removed. -/
theorem handleGuildRemove (h : Registered s) (p : Player) (target : ℕ) (best : Option ℕ) :
    Registered (s.handleGuildRemove p target best) := by
  unfold GuildMgr.handleGuildRemove
  split
  · exact h
  · next g hfind =>
    split
    · next hmem =>
      refine h.delMemberOrDisband (fun id' hid' => ?_) best
      rw [h.index_of_mem (GuildMgr.getGuildById_some hfind).1 hmem] at hid'
      exact (Option.some.inj hid').symm
    · exact h

/-- A member leaves. -/
theorem handleGuildLeave (h : Registered s) (hp : p ∈ s.players) (best : Option ℕ) :
    Registered (s.handleGuildLeave p best) := by
  unfold GuildMgr.handleGuildLeave
  split
  · exact h
  · next g hfind =>
    obtain ⟨hg, hid⟩ := GuildMgr.getGuildById_some hfind
    split_ifs
    · exact h
    · exact h.disband hg
    · refine h.delMemberOrDisband (fun id' hid' => ?_) best
      rw [hid]
      exact h.index_eq hp hid'

/-- A guild is disbanded by its leader. -/
theorem handleGuildDisband (h : Registered s) (p : Player) :
    Registered (s.handleGuildDisband p) := by
  unfold GuildMgr.handleGuildDisband
  split
  · exact h
  · next g hfind =>
    split
    · exact h
    · exact h.disband (GuildMgr.getGuildById_some hfind).1

/-- An invitation is dropped. -/
theorem dropInvite (h : Registered s) (p : Player) (toGuildId : ℕ) :
    Registered (s.dropInvite p toGuildId) := by
  unfold GuildMgr.dropInvite
  split
  · exact h.writePlayer fun _ => ⟨rfl, rfl⟩
  · exact h

/-- A member of one guild goes to another, or signs a charter. -/
theorem applyGuildSwitch (h : Registered s) (member fromGuildId toGuildId petitionId : ℕ)
    (best : Option ℕ) :
    Registered (s.applyGuildSwitch member fromGuildId toGuildId petitionId best) := by
  unfold GuildMgr.applyGuildSwitch
  split
  · exact h
  · next p hp =>
    obtain ⟨hmem, rfl⟩ := GuildMgr.findPlayer_some hp
    split
    · exact h
    · split
      · exact h.dropInvite p toGuildId
      · next old hold =>
        split_ifs with hfrom hleader hpetition
        · exact h.dropInvite p toGuildId
        · exact h.dropInvite p toGuildId
        · split
          · exact h
          · have hleft : Registered (s.delMemberOrDisband old p.guid best) := by
              refine h.delMemberOrDisband (fun id' hid' => ?_) best
              rw [(GuildMgr.getGuildById_some hold).2, ← not_not.mp hfrom]
              exact h.index_eq hmem hid'
            split_ifs
            · exact h
            · exact hleft.addPetitionSignature (GuildMgr.guid2guild_delMemberOrDisband hleader best)
        · split
          · exact h.dropInvite p toGuildId
          · next new hnew =>
            have hleft : Registered (s.delMemberOrDisband old p.guid best) := by
              refine h.delMemberOrDisband (fun id' hid' => ?_) best
              rw [(GuildMgr.getGuildById_some hold).2, ← not_not.mp hfrom]
              exact h.index_eq hmem hid'
            have hdeparted : GuildMgr.Departed old.id s (s.delMemberOrDisband old p.guid best) :=
              GuildMgr.departed_delMemberOrDisband best
            split_ifs with hsame
            · exact h.dropInvite p toGuildId
            · have honline : (s.delMemberOrDisband old p.guid best).findPlayer p.guid ≠ none := by
                rw [GuildMgr.findPlayer_ne_none, hdeparted.players]
                exact List.mem_map_of_mem hmem
              have hexists := hdeparted.others new.id (fun hid => hsame (Or.inl hid))
                ⟨new, (GuildMgr.getGuildById_some hnew).1, rfl⟩
              have hjoined := hleft.addMember hexists fun hnone => absurd hnone honline
              dsimp only
              split
              · next joined heq => rwa [heq] at hjoined
              · next failed heq =>
                rw [heq] at hjoined
                exact hjoined.dropInvite p toGuildId

/-- A request of a player. -/
theorem receive (h : Registered s) (hp : p ∈ s.players) (request : Request)
    (hcareful : ∀ id, request = .turnInPetition id → p.guildId = 0 → ∀ petition,
      s.getPetitionById id = some petition → p.guid = petition.ownerGuid →
      petition.signatures.length = s.minPetitionSigns →
      (s.guilds.any fun g => g.name = petition.name) = false →
      ∀ signature ∈ petition.signatures, ∀ l ∈ s.logins, l.1 ≠ signature.player) :
    Registered (s.receive p request) := by
  cases request with
  | guildCreate name => exact h.handleGuildCreate hp name
  | petitionBuy name => exact h.handlePetitionBuy p name
  | petitionSign id => exact h.handlePetitionSign hp id
  | turnInPetition id => exact h.handleTurnInPetition hp id (hcareful id rfl)
  | invite target => exact h.handleGuildInvite p target
  | accept => exact h.handleGuildAccept hp
  | decline => exact h.handleGuildDecline p
  | remove target best => exact h.handleGuildRemove p target best
  | leave best => exact h.handleGuildLeave hp best
  | disband => exact h.handleGuildDisband p

end Requests

/-- A login query is answered. The row of a member says which guild he is in. -/
theorem loginQuery (h : Registered s)
    (hrow : s.findPlayer guid = none → ∀ id, s.guid2guild guid = some id → s.stored guid = some id) :
    Registered (s.loginQuery guid) := by
  unfold GuildMgr.loginQuery
  split
  · exact h
  · next hnone =>
    split
    · exact h
    · refine { h with logins := fun l hl id hid => ?_, apart := fun l hl p hp => ?_ }
      · rcases List.mem_append.mp hl with hold | hnew
        · exact h.logins l hold id hid
        · have hl : l = (guid, (s.stored guid).getD 0) := List.mem_singleton.mp hnew
          subst hl
          have hid : s.guid2guild guid = some id := hid
          show (s.stored guid).getD 0 = id
          rw [hrow hnone id hid]
          rfl
      · rcases List.mem_append.mp hl with hold | hnew
        · exact h.apart l hold p hp
        · rw [List.mem_singleton.mp hnew]
          rintro rfl
          exact GuildMgr.findPlayer_ne_none.mpr (List.mem_map_of_mem hp) hnone

/-- A character enters the world with the guild his login query found. -/
theorem loadGuild (h : Registered s) (guid : ℕ) : Registered (s.loadGuild guid) := by
  unfold GuildMgr.loadGuild
  split
  · exact h
  · next l hfind =>
    have hmem : l ∈ s.logins := List.mem_of_find?_eq_some hfind
    have hguid : l.1 = guid := by simpa using List.find?_some hfind
    subst hguid
    refine { h with
      sessions := fun p hp id hid => ?_
      logins := fun l' hl' => h.logins l' (List.mem_of_mem_filter hl')
      apart := fun l' hl' p hp => ?_ }
    · rcases List.mem_append.mp hp with hold | hnew
      · exact h.sessions p hold id hid
      · rw [List.mem_singleton.mp hnew] at hid ⊢
        have hl := h.logins l hmem id hid
        obtain ⟨g, hg, hgid, -⟩ := (h.index l.1 id).mp hid
        have hsome : (s.getGuildById l.2).isSome := by
          refine List.find?_isSome.mpr ⟨g, hg, ?_⟩
          exact decide_eq_true (hgid.trans hl.symm)
        show (if (s.getGuildById l.2).isSome then l.2 else 0) = id
        rw [if_pos hsome, hl]
    · obtain ⟨hl', hne⟩ := List.mem_filter.mp hl'
      rcases List.mem_append.mp hp with hold | hnew
      · exact h.apart l' hl' p hold
      · rw [List.mem_singleton.mp hnew]
        exact fun heq => of_decide_eq_true hne heq.symm

/-- Executing a statement is not heard of. -/
theorem execute (h : Registered s) (index : ℕ) : Registered (s.execute index) := by
  unfold GuildMgr.execute
  split
  · exact h
  · exact { h with }

/-- A careful event keeps everything. -/
theorem membershipStep (h : Registered s) {event : Event} (hcareful : Careful s event) :
    Registered (membershipStep s event) := by
  cases event with
  | request sender request =>
      simp only [TwowCore.Guilds.Membership.membershipStep]
      split
      · exact h
      · next p hp =>
        split
        · next hworld =>
          refine h.receive (GuildMgr.findPlayer_some hp).1 request ?_
          rintro id rfl hguild petition
          exact hcareful p petition hp hworld hguild
        · exact h
  | guildSwitch member fromGuildId toGuildId petitionId best =>
      exact h.applyGuildSwitch member fromGuildId toGuildId petitionId best
  | deletePetition id => exact h.deletePetition id
  | loginQuery guid => exact h.loginQuery hcareful
  | login guid => exact h.loadGuild guid
  | logout guid =>
      exact { h with
        sessions := fun p hp => h.sessions p (Lib.mem_eraseKey.mp hp).1
        apart := fun l hl p hp => h.apart l hl p (Lib.mem_eraseKey.mp hp).1 }
  | leaveMap guid => exact h.writePlayer fun _ => ⟨rfl, rfl⟩
  | enterMap guid => exact h.writePlayer fun _ => ⟨rfl, rfl⟩
  | execute index => exact h.execute index

end Registered

/-- A manager without guilds and petitions, and nobody online. -/
def GuildMgr.empty (account : ℕ → ℕ) (known : ℕ → Bool) (minPetitionSigns : ℕ) : GuildMgr where
  guilds := []
  guid2guild _ := none
  petitions := []
  players := []
  logins := []
  stored _ := none
  pending := []
  nextGuildId := 1
  nextPetitionId := 1
  account := account
  known := known
  minPetitionSigns := minPetitionSigns

/-- Nothing has to hold of a manager that is empty. -/
theorem registered_empty (account : ℕ → ℕ) (known : ℕ → Bool) (minPetitionSigns : ℕ) :
    Registered (GuildMgr.empty account known minPetitionSigns) where
  ids := List.nodup_nil
  fresh g hg := absurd hg List.not_mem_nil
  next := Nat.one_pos
  index guid id := by
    constructor
    · intro hnone
      cases hnone
    · rintro ⟨g, hg, -⟩
      cases hg
  sessions p hp := absurd hp List.not_mem_nil
  logins l hl := absurd hl List.not_mem_nil
  apart l hl := absurd hl List.not_mem_nil
  signed :=
    ⟨List.nodup_nil, fun p hp => absurd hp List.not_mem_nil, List.nodup_nil,
      fun p hp => absurd hp List.not_mem_nil, fun p hp => absurd hp List.not_mem_nil⟩
  free guid hguid := absurd hguid List.not_mem_nil

/-- The manager after the events, nobody having been a member before. -/
def afterEvents (account : ℕ → ℕ) (known : ℕ → Bool) (minPetitionSigns : ℕ)
    (events : List Event) : GuildMgr :=
  Lib.run membershipStep (GuildMgr.empty account known minPetitionSigns) events

/-- A careful run keeps everything. -/
theorem run_registered (account : ℕ → ℕ) (known : ℕ → Bool) (minPetitionSigns : ℕ)
    {events : List Event}
    (hcareful : Lib.Along Careful membershipStep (GuildMgr.empty account known minPetitionSigns)
      events) :
    Registered (afterEvents account known minPetitionSigns events) :=
  Lib.run_invariant Registered (fun _ _ hok h => h.membershipStep hok)
    (registered_empty account known minPetitionSigns) hcareful

/-- Who is a member of what, and who has signed what: a character is a member of one guild at most,
the index maps him to it and to nothing when he has none, he has one signature at most and none as
a member, an account signs a petition once, and no petition has more signatures than it needs. -/
structure Lawful (s : GuildMgr) : Prop where
  single : ∀ g ∈ s.guilds, ∀ g' ∈ s.guilds, ∀ guid ∈ g.members, guid ∈ g'.members → g = g'
  index : ∀ guid id, s.guid2guild guid = some id ↔ ∃ g ∈ s.guilds, g.id = id ∧ guid ∈ g.members
  once : ∀ guid, (signers s.petitions).count guid ≤ 1
  guildless : ∀ guid ∈ signers s.petitions, ∀ g ∈ s.guilds, guid ∉ g.members
  accounts : ∀ p ∈ s.petitions, (p.signatures.map Signature.account).Nodup
  length : ∀ p ∈ s.petitions, p.signatures.length ≤ s.getPetitionSignsRequired

/-- What is kept says who is a member of what. -/
theorem Registered.lawful {s : GuildMgr} (h : Registered s) : Lawful s where
  single g hg g' hg' guid hmem hmem' := by
    have hindex := h.index_of_mem hg hmem
    rw [h.index_of_mem hg' hmem'] at hindex
    exact List.inj_on_of_nodup_map h.ids hg hg' (Option.some.inj hindex).symm
  index := h.index
  once guid := List.nodup_iff_count_le_one.mp h.signed.once guid
  guildless guid hsigner g hg hmem := by
    have hnone := h.free guid hsigner
    rw [h.index_of_mem hg hmem] at hnone
    cases hnone
  accounts := h.signed.accounts
  length := h.signed.length

/-- In every state of a run in which no completed petition is turned in while one who signed it is
logging in, and every member who logs in is found with his row, members and signatures are as they
should be. -/
theorem run_memberships (account : ℕ → ℕ) (known : ℕ → Bool) (minPetitionSigns : ℕ)
    {events : List Event}
    (hcareful : Lib.Along Careful membershipStep (GuildMgr.empty account known minPetitionSigns)
      events) :
    Lawful (afterEvents account known minPetitionSigns events) :=
  (run_registered account known minPetitionSigns hcareful).lawful

/-- A charter is bought by the first character and signed by the second, who logs out; the first
turns it in, and both are members of one guild. The second logs in again when his row is there. -/
def petitionEvents : List Event :=
  [.loginQuery 1, .login 1, .loginQuery 2, .login 2, .request 1 (.petitionBuy [1]),
    .request 2 (.petitionSign 1), .logout 2, .request 1 (.turnInPetition 1), .execute 0, .execute 1,
    .loginQuery 2, .login 2]

theorem run_memberships_petition :
    (afterEvents id (fun _ => true) 1 petitionEvents).guilds = [⟨1, [1], 1, [1, 2]⟩] ∧
      Lawful (afterEvents id (fun _ => true) 1 petitionEvents) := by
  refine ⟨by decide +kernel, run_memberships id (fun _ => true) 1 ?_⟩
  refine ⟨nofun, trivial, nofun, trivial, trivial, trivial, trivial, ?_, trivial, trivial, ?_, trivial,
    trivial⟩
  · -- nobody is logging in when the charter is turned in
    intro p petition _ _ _ _ _ _ _ signature _ l hl
    have hnobody : (Lib.run membershipStep (GuildMgr.empty id (fun _ => true) 1)
        (petitionEvents.take 7)).logins = [] := by decide +kernel
    exact absurd (hnobody ▸ hl) List.not_mem_nil
  · -- the row of the second is there when he logs in
    intro _ id' hid'
    have hindex : (Lib.run membershipStep (GuildMgr.empty id (fun _ => true) 1)
        (petitionEvents.take 10)).guid2guild 2 = some 1 := by decide +kernel
    have hstored : (Lib.run membershipStep (GuildMgr.empty id (fun _ => true) 1)
        (petitionEvents.take 10)).stored 2 = some 1 := by decide +kernel
    exact hstored.trans (hindex.symm.trans hid')

/-- The second character is on his way back when the first turns the charter in: he is taken in as
one who is offline, and enters the world without a guild. So he can found one of his own. -/
def lateLoginEvents : List Event :=
  [.loginQuery 1, .login 1, .loginQuery 2, .login 2, .request 1 (.petitionBuy [1]),
    .request 2 (.petitionSign 1), .logout 2, .loginQuery 2, .request 1 (.turnInPetition 1),
    .login 2, .request 2 (.guildCreate [2])]

/-- Then he is a member of two guilds. -/
theorem lateLogin_members : ¬Lawful (afterEvents id (fun _ => true) 1 lateLoginEvents) := by
  have hguilds : (afterEvents id (fun _ => true) 1 lateLoginEvents).guilds =
      [⟨1, [1], 1, [1, 2]⟩, ⟨2, [2], 2, [2]⟩] := by decide +kernel
  intro h
  have hsame := h.single ⟨1, [1], 1, [1, 2]⟩ (by simp [hguilds]) ⟨2, [2], 2, [2]⟩
    (by simp [hguilds]) 2 (by simp) (by simp)
  cases hsame

/-- The second character comes back after the charter is turned in, but before the database has his
row. -/
def lateRowEvents : List Event :=
  [.loginQuery 1, .login 1, .loginQuery 2, .login 2, .request 1 (.petitionBuy [1]),
    .request 2 (.petitionSign 1), .logout 2, .request 1 (.turnInPetition 1), .loginQuery 2, .login 2,
    .request 2 (.guildCreate [2])]

/-- He founds a guild of his own in this case too. -/
theorem lateRow_guilds : (afterEvents id (fun _ => true) 1 lateRowEvents).guilds =
    [⟨1, [1], 1, [1, 2]⟩, ⟨2, [2], 2, [2]⟩] := by decide +kernel

end TwowCore.Guilds.Membership
